import HubFederation.Json.Record

/-!
# Allow lists

An allow list is what a hub grants one peer that dials it: for each kind of SSH
request the targets that are allowed or blocked, and a default for all others.

* `mem_union`: merging unites targets.
* `agree_eq_some`: merging keeps a default that both sides have.
-/
namespace HubFederation

/-- The kinds of SSH requests that a hub may grant a peer.
mirrors `allow.Kind` -/
inductive RequestKind where
  | directTcpip
  | directStreamlocal
  | tcpipForward
  | streamlocalForward
  deriving DecidableEq, Repr

namespace RequestKind

/-- mirrors `allow.Kind.fmt` -/
def text : RequestKind → String
  | directTcpip => "direct-tcpip"
  | directStreamlocal => "direct-streamlocal"
  | tcpipForward => "tcpip-forward"
  | streamlocalForward => "streamlocal-forward"

def all : List RequestKind := [directTcpip, directStreamlocal, tcpipForward, streamlocalForward]

def ofText? (s : String) : Option RequestKind := all.find? (·.text == s)

end RequestKind

/-- What is allowed and blocked for requests of one kind. -/
structure Permission where
  default : Option Bool
  allows : List String
  blocks : List String
  deriving DecidableEq, Repr

namespace Permission

def empty : Permission := ⟨none, [], []⟩

instance : EmptyCollection Permission := ⟨empty⟩
instance : Inhabited Permission := ⟨empty⟩

/-- mirrors `Permission.is_empty` -/
def isEmpty (p : Permission) : Bool := p.default.isNone && p.allows.isEmpty && p.blocks.isEmpty

/-- The targets of both lists, ascending and each once.
mirrors `allow.union` -/
def union (a b : List String) : List String :=
  (SortedMap.ofList ((a ++ b).map (·, ()))).keys

/-- A default survives only where both sides have it.
mirrors the default in `Permission.merge` -/
def agree (a b : Option Bool) : Option Bool := if a = b then a else none

/-- mirrors `Permission.merge` -/
def merge (p q : Permission) : Permission :=
  ⟨agree p.default q.default, union p.allows q.allows, union p.blocks q.blocks⟩

theorem mem_union {a b : List String} {t : String} : t ∈ union a b ↔ t ∈ a ∨ t ∈ b := by
  unfold union
  rw [SortedMap.mem_keys_ofList]
  simp

theorem agree_eq_some {a b : Option Bool} {d : Bool} :
    agree a b = some d ↔ a = some d ∧ b = some d := by
  unfold agree
  split
  next h => subst h; simp
  next h =>
    refine ⟨fun h' => (nomatch h'), fun h' => absurd ?_ h⟩
    exact h'.1.trans h'.2.symm

/-! ## JSON -/

def toJson (p : Permission) : Json :=
  let targets (ts : List String) : Option Json := if ts.isEmpty then none else some (.strings ts)
  .present [("default", p.default.map .bool), ("allows", targets p.allows),
    ("blocks", targets p.blocks)]

def ofJson? (j : Json) : Option Permission := do
  let r ← Json.Record.ofJson? ["default", "allows", "blocks"] j
  let targets := Json.list? Json.string?
  return ⟨← r.optional "default" Json.bool?, ← r.withDefault "allows" [] targets,
    ← r.withDefault "blocks" [] targets⟩

end Permission

/-- Everything that a hub grants one peer. -/
structure AllowList where
  directStreamlocal : Permission
  directTcpip : Permission
  streamlocalForward : Permission
  tcpipForward : Permission
  deriving DecidableEq, Repr

namespace AllowList

def empty : AllowList := ⟨∅, ∅, ∅, ∅⟩

instance : EmptyCollection AllowList := ⟨empty⟩
instance : Inhabited AllowList := ⟨empty⟩

/-- mirrors `AllowList.permission` -/
def permission (l : AllowList) : RequestKind → Permission
  | .directStreamlocal => l.directStreamlocal
  | .directTcpip => l.directTcpip
  | .streamlocalForward => l.streamlocalForward
  | .tcpipForward => l.tcpipForward

/-- The list with another permission for one kind.
mirrors `AllowList.permission_mut` -/
def setPermission (l : AllowList) (kind : RequestKind) (p : Permission) : AllowList :=
  match kind with
  | .directStreamlocal => { l with directStreamlocal := p }
  | .directTcpip => { l with directTcpip := p }
  | .streamlocalForward => { l with streamlocalForward := p }
  | .tcpipForward => { l with tcpipForward := p }

/-- A list that grants one target.
mirrors `AllowList.allow` -/
def allow (kind : RequestKind) (target : String) : AllowList :=
  empty.setPermission kind ⟨none, [target], []⟩

/-- mirrors `AllowList.is_empty` -/
def isEmpty (l : AllowList) : Bool :=
  l.directStreamlocal.isEmpty && l.directTcpip.isEmpty && l.streamlocalForward.isEmpty &&
    l.tcpipForward.isEmpty

/-- mirrors `AllowList.merge` -/
def merge (l m : AllowList) : AllowList where
  directStreamlocal := l.directStreamlocal.merge m.directStreamlocal
  directTcpip := l.directTcpip.merge m.directTcpip
  streamlocalForward := l.streamlocalForward.merge m.streamlocalForward
  tcpipForward := l.tcpipForward.merge m.tcpipForward

@[simp] theorem permission_merge (l m : AllowList) (kind : RequestKind) :
    (l.merge m).permission kind = (l.permission kind).merge (m.permission kind) := by
  cases kind <;> rfl

@[simp] theorem permission_allow (kind kind' : RequestKind) (target : String) :
    (allow kind target).permission kind' = if kind' = kind then ⟨none, [target], []⟩ else ∅ := by
  cases kind <;> cases kind' <;> rfl

/-! ## JSON -/

def toJson (l : AllowList) : Json :=
  .obj [("direct-streamlocal", l.directStreamlocal.toJson), ("direct-tcpip", l.directTcpip.toJson),
    ("streamlocal-forward", l.streamlocalForward.toJson), ("tcpip-forward", l.tcpipForward.toJson)]

def ofJson? (j : Json) : Option AllowList := do
  let r ← Json.Record.ofJson?
    ["direct-streamlocal", "direct-tcpip", "streamlocal-forward", "tcpip-forward"] j
  let member (name : String) := r.withDefault name ∅ Permission.ofJson?
  return ⟨← member "direct-streamlocal", ← member "direct-tcpip", ← member "streamlocal-forward",
    ← member "tcpip-forward"⟩

end AllowList

end HubFederation
