import HubFederation.Chain.Basic

/-!
# Merging chains

Two chains that meet at a unix socket are one chain if a single hub can run both.
Three passes find them:

* `fuse`: the two chains of a hub that dials both of its neighbours;
* `foldExports`: a chain whose only end is the socket that the next hub dials,
  from the exporting side on;
* `foldImports`: the same against the socket that the hub before binds, from the
  importing side on.
-/
namespace HubFederation.Chains

/-- The neighbouring pairs of a way. -/
def neighbours (way : List String) : List (String × String) := way.zip way.tail

/-- The two chains of one hub as one, if the first binds the socket that the second dials.
mirrors one hub of `chain.merge_repeaters` -/
def fuse : List Chain → List Chain
  | [⟨.unix path :: hops, proxy⟩, ⟨bind, .unix path' :: hops'⟩] =>
    if path = path' then [⟨bind, proxy⟩]
    else [⟨.unix path :: hops, proxy⟩, ⟨bind, .unix path' :: hops'⟩]
  | cs => cs

/-- mirrors `chain.merge_repeaters` -/
def fuseAll (cs : Chains) : Chains := cs.map fun _ own => fuse own

/-- Lets the importing hub of a pair run the exporting hub's chain as well, if the
latter binds nothing but the socket that the former dials.
mirrors one pair of `chain.merge_reachable_exports` -/
def foldExport (cs : Chains) (pair : String × String) : Chains :=
  match cs.single? pair.1, cs.single? pair.2 with
  | some ⟨[.unix path], proxy⟩, some ⟨bind, .unix path' :: hops⟩ =>
    if path = path' then (cs.insert pair.2 [⟨bind, proxy ++ hops⟩]).insert pair.1 [] else cs
  | _, _ => cs

/-- Lets the exporting hub of a pair run the importing hub's chain as well, if the
latter dials nothing but the socket that the former binds.
mirrors one pair of `chain.merge_reachable_imports` -/
def foldImport (cs : Chains) (pair : String × String) : Chains :=
  match cs.single? pair.1, cs.single? pair.2 with
  | some ⟨.unix path :: hops, proxy⟩, some ⟨bind, [.unix path']⟩ =>
    if path = path' then (cs.insert pair.1 [⟨bind ++ hops, proxy⟩]).insert pair.2 [] else cs
  | _, _ => cs

/-- mirrors `chain.merge_reachable_exports` -/
def foldExports (way : List String) (cs : Chains) : Chains := (neighbours way).foldl foldExport cs

/-- mirrors `chain.merge_reachable_imports` -/
def foldImports (way : List String) (cs : Chains) : Chains :=
  (neighbours way).foldr (fun pair cs => foldImport cs pair) cs

/-- The chains after all three passes, without hubs that are left with none.
mirrors `chain.merge` -/
def merge (way : List String) (cs : Chains) : Chains :=
  (foldImports way (foldExports way (fuseAll cs))).filter fun _ own => !own.isEmpty

end HubFederation.Chains
