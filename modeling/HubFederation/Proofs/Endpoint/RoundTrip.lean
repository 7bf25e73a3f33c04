import HubFederation.Endpoint
import HubFederation.Proofs.Lookup
import Mathlib.Data.List.Infix

/-!
# Endpoints and their texts

Five kinds of endpoints share the texts. They are told apart by what a text starts with and
by where its separators are, so not every value can be read back: a host may hide a scheme,
a user may hide the query. The values that can are the canonical ones, and reading makes no
others.

* `canonical_of_parse`: what is read is canonical.
* `parse_text_of_canonical`: what is canonical is read back.
* `parse_text`: a text that is read is an endpoint that its own text names again, and an
  endpoint is read back if and only if it is canonical.
-/
namespace HubFederation

/-! ## What can be read back -/

/-- An SSH hop none of whose parts holds a separator that is looked for in it. -/
structure SshHop.Canonical (h : SshHop) : Prop where
  address : '?' ∉ h.address.toList ∧ '@' ∉ h.address.toList
  /-- A port follows the last colon of the address. -/
  port : ∃ host digits port, h.address.toList = host ++ ':' :: digits ∧ ':' ∉ digits ∧
    Port.ofChars? digits = some port
  user : ∀ user, h.user = some user → '?' ∉ user.toList
  params : ∀ key value, h.params.get? key = some value →
    '=' ∉ key.toList ∧ '&' ∉ key.toList ∧ '&' ∉ value.toList

/-- An endpoint whose text names no other one. -/
def Endpoint.Canonical : Endpoint → Prop
  | listen _ => True
  | tcp host _ => host ≠ "" ∧ ¬ schemeMark <:+: host.toList
  | unix path => ['/'] <+: path.toList
  | ssh hop => hop.Canonical
  | proxy uri => schemeMark <:+: uri.toList ∧ ¬ unixScheme <+: uri.toList ∧
      ¬ SshHop.scheme <+: uri.toList

/-! ## Parameters of a hop -/

namespace Text

/-- The pieces between separators hold none. -/
theorem not_mem_of_mem_splitOn {c : Char} {s p : List Char} (h : p ∈ s.splitOn c) : c ∉ p := by
  induction s generalizing p with
  | nil =>
    rw [List.splitOn_nil, List.mem_singleton] at h
    rw [h]
    exact List.not_mem_nil
  | cons x s ih =>
    rw [List.splitOn_cons_eq_if_modifyHead] at h
    split at h
    · rcases List.mem_cons.1 h with rfl | h
      · exact List.not_mem_nil
      · exact ih h
    next hx =>
      cases hs : s.splitOn c with
      | nil => exact absurd hs (List.splitOn_ne_nil c s)
      | cons q qs =>
        rw [hs] at h ih
        rcases List.mem_cons.1 h with rfl | h
        · have hq := ih (List.mem_cons_self ..)
          simp only [beq_iff_eq] at hx
          simp [hq, Ne.symm hx]
        · exact ih (List.mem_cons_of_mem _ h)

end Text

namespace SshHop

/-- The parameters of a query hold no separators. -/
theorem params_of_readQuery {query : List Char} {params : SortedMap String String}
    (h : readQuery query = some params) {key value : String} (hp : params.get? key = some value) :
    '=' ∉ key.toList ∧ '&' ∉ key.toList ∧ '&' ∉ value.toList := by
  unfold readQuery at h
  obtain ⟨es, hes, rfl⟩ := Option.map_eq_some_iff.1 h
  obtain ⟨piece, hpiece, hcut⟩ := mem_of_mapM hes (SortedMap.mem_of_get?_ofList hp)
  obtain ⟨⟨k, v⟩, hkv, he⟩ := Option.map_eq_some_iff.1 hcut
  cases he
  obtain ⟨rfl, hk⟩ := Text.eq_of_cutFirst hkv
  have hamp : '&' ∉ k ++ '=' :: v :=
    Text.not_mem_of_mem_splitOn (List.mem_filter.1 hpiece).1
  simp only [List.mem_append, List.mem_cons, not_or] at hamp
  simp [hk, hamp.1, hamp.2.2]

theorem mapM_paramChars {es : List (String × String)} (h : ∀ e ∈ es, '=' ∉ e.1.toList) :
    ((es.map paramChars).mapM fun piece => (Text.cutFirst '=' piece).map fun (k, v) =>
      (String.ofList k, String.ofList v)) = some es := by
  induction es with
  | nil => rfl
  | cons e es ih =>
    have hcut : Text.cutFirst '=' (paramChars e) = some (e.1.toList, e.2.toList) :=
      Text.cutFirst_append (h e (List.mem_cons_self ..))
    rw [List.map_cons, List.mapM_cons, hcut, ih fun e' he => h e' (List.mem_cons_of_mem _ he)]
    simp

/-- Parameters are read back. -/
theorem readQuery_intercalate {es : List (String × String)} (hne : es ≠ [])
    (h : ∀ e ∈ es, '=' ∉ e.1.toList ∧ '&' ∉ e.1.toList ∧ '&' ∉ e.2.toList) :
    readQuery (List.intercalate ['&'] (es.map paramChars)) = some (SortedMap.ofList es) := by
  have hpieces : ∀ piece ∈ es.map paramChars, '&' ∉ piece ∧ piece ≠ [] := by
    intro piece hpiece
    obtain ⟨e, he, rfl⟩ := List.mem_map.1 hpiece
    obtain ⟨-, hk, hv⟩ := h e he
    unfold paramChars
    simp [hk, hv]
  have hsplit : (List.intercalate ['&'] (es.map paramChars)).splitOn '&' = es.map paramChars :=
    List.splitOn_intercalate '&' (fun piece hpiece => (hpieces piece hpiece).1) (by simpa using hne)
  have hfilter : (es.map paramChars).filter (· ≠ []) = es.map paramChars :=
    List.filter_eq_self.2 fun piece hpiece => by simp [(hpieces piece hpiece).2]
  unfold readQuery
  simp only [hsplit, hfilter, mapM_paramChars fun e he => (h e he).1]
  rfl

/-! ## Hops -/

/-- An address that has a port is an address before a colon and a port. -/
theorem hasPort_iff {address : List Char} : hasPort address = true ↔
    ∃ host digits port, address = host ++ ':' :: digits ∧ ':' ∉ digits ∧
      Port.ofChars? digits = some port := by
  constructor
  · intro h
    unfold hasPort at h
    split at h
    next host digits hcut =>
      obtain ⟨haddress, hdigits⟩ := Text.eq_of_cutLast hcut
      obtain ⟨port, hport⟩ := Option.isSome_iff_exists.1 h
      exact ⟨host, digits, port, haddress, hdigits, hport⟩
    · cases h
  · rintro ⟨host, digits, port, rfl, hdigits, hport⟩
    unfold hasPort
    rw [Text.cutLast_append hdigits]
    simp [hport]

/-- The hop of a user, an address and a query. -/
def ofParts (s : String) (user : Option String) (address query : List Char) :
    Except EndpointError SshHop :=
  if address = [] then .error (.missingAddress s)
  else if !hasPort address then .error (.invalidPort s)
  else match readQuery query with
    | some params => .ok ⟨user, String.ofList address, params⟩
    | none => .error (.malformedQuery s)

theorem ofParts_eq_ok {s : String} {user : Option String} {address query : List Char}
    {hop : SshHop} : ofParts s user address query = .ok hop ↔
      hasPort address = true ∧ ∃ params, readQuery query = some params ∧
        hop = ⟨user, String.ofList address, params⟩ := by
  unfold ofParts
  constructor
  · intro h
    split at h
    · cases h
    · split at h
      · cases h
      next hport =>
        split at h
        next params hquery => cases h; exact ⟨by simpa using hport, params, hquery, rfl⟩
        · cases h
  · rintro ⟨hport, params, hquery, rfl⟩
    have hne : address ≠ [] := by
      rintro rfl
      cases hport
    rw [if_neg hne, hport, hquery]
    rfl

/-- The text after a scheme is cut at its first question mark, and what is before that at its
last at sign. -/
theorem ofChars_eq (s : String) (authority query : List Char) (hq : '?' ∉ authority) :
    (ofChars s (authority ++ '?' :: query) = match Text.cutLast '@' authority with
      | some (user, address) => ofParts s (some (String.ofList user)) address query
      | none => ofParts s none authority query) ∧
    (ofChars s authority = match Text.cutLast '@' authority with
      | some (user, address) => ofParts s (some (String.ofList user)) address []
      | none => ofParts s none authority []) := by
  constructor
  · simp only [ofChars, Text.cutFirst_append hq]
    cases Text.cutLast '@' authority <;> rfl
  · simp only [ofChars, Text.cutFirst_eq_none.2 hq]
    cases Text.cutLast '@' authority <;> rfl

/-- A hop that is read is made of a part before the query and of the query. -/
theorem parts_of_ofChars {s : String} {rest : List Char} {hop : SshHop}
    (h : ofChars s rest = .ok hop) : ∃ authority query, '?' ∉ authority ∧
      (match Text.cutLast '@' authority with
        | some (user, address) => ofParts s (some (String.ofList user)) address query
        | none => ofParts s none authority query) = .ok hop := by
  cases hcut : Text.cutFirst '?' rest with
  | none =>
    have hq := Text.cutFirst_eq_none.1 hcut
    rw [(ofChars_eq s rest [] hq).2] at h
    exact ⟨rest, [], hq, h⟩
  | some p =>
    obtain ⟨rfl, hq⟩ := Text.eq_of_cutFirst hcut
    rw [(ofChars_eq s p.1 p.2 hq).1] at h
    exact ⟨p.1, p.2, hq, h⟩

/-- Reading makes canonical hops. -/
theorem canonical_of_ofChars {s : String} {rest : List Char} {hop : SshHop}
    (h : ofChars s rest = .ok hop) : hop.Canonical := by
  obtain ⟨authority, query, hq, h⟩ := parts_of_ofChars h
  cases hcut : Text.cutLast '@' authority with
  | none =>
    rw [hcut] at h
    obtain ⟨hport, params, hquery, rfl⟩ := ofParts_eq_ok.1 h
    have hat := Text.cutLast_eq_none.1 hcut
    exact ⟨by simp [hq, hat], by simpa using hasPort_iff.1 hport, fun _ hu => (nomatch hu),
      fun _ _ hp => params_of_readQuery hquery hp⟩
  | some p =>
    obtain ⟨user, address⟩ := p
    rw [hcut] at h
    obtain ⟨hport, params, hquery, rfl⟩ := ofParts_eq_ok.1 h
    obtain ⟨rfl, hat⟩ := Text.eq_of_cutLast hcut
    simp only [List.mem_append, List.mem_cons, not_or] at hq
    refine ⟨by simp [hq.2.2, hat], by simpa using hasPort_iff.1 hport, ?_,
      fun _ _ hp => params_of_readQuery hquery hp⟩
    intro u hu
    cases hu
    simpa using hq.1

/-- The part of a hop's text before the query. -/
def authority (h : SshHop) : List Char :=
  (match h.user with | some u => u.toList ++ ['@'] | none => []) ++ h.address.toList

/-- A canonical hop is read back from what is before the query and from a query that holds its
parameters. -/
theorem ofParts_of_canonical (s : String) {hop : SshHop} (h : hop.Canonical) {query : List Char}
    (hquery : readQuery query = some hop.params) :
    (match Text.cutLast '@' hop.authority with
      | some (user, address) => ofParts s (some (String.ofList user)) address query
      | none => ofParts s none hop.authority query) = .ok hop := by
  obtain ⟨user, address, params⟩ := hop
  have hport := hasPort_iff.2 h.port
  have hread (u : Option String) : ofParts s u address.toList query = .ok ⟨u, address, params⟩ :=
    ofParts_eq_ok.2 ⟨hport, params, hquery, by simp⟩
  cases user with
  | none =>
    have hcut : Text.cutLast '@' (authority ⟨none, address, params⟩) = none :=
      Text.cutLast_eq_none.2 h.address.2
    rw [hcut]
    exact hread none
  | some u =>
    have hcut : Text.cutLast '@' (authority ⟨some u, address, params⟩) =
        some (u.toList, address.toList) := by
      have := Text.cutLast_append h.address.2 u.toList
      simpa [authority] using this
    rw [hcut]
    simpa using hread (some u)

/-- A canonical hop is read back from its text. -/
theorem ofChars_of_canonical (s : String) {hop : SshHop} (h : hop.Canonical) :
    ofChars s (hop.authority ++ queryChars hop.params.entries) = .ok hop := by
  have hq : '?' ∉ hop.authority := by
    unfold authority
    cases hu : hop.user with
    | none => simpa using h.address.1
    | some u => simp [h.user u hu, h.address.1]
  have hparams : ∀ e ∈ hop.params.entries,
      '=' ∉ e.1.toList ∧ '&' ∉ e.1.toList ∧ '&' ∉ e.2.toList := fun e he =>
    h.params e.1 e.2 (SortedMap.mem_entries_iff.1 he)
  cases hes : hop.params.entries with
  | nil =>
    have hempty : readQuery [] = some hop.params := by
      rw [← SortedMap.ofList_entries hop.params, hes]
      rfl
    rw [queryChars, List.append_nil, (ofChars_eq s hop.authority [] hq).2]
    exact ofParts_of_canonical s h hempty
  | cons e es =>
    rw [hes] at hparams
    have hquery := readQuery_intercalate (List.cons_ne_nil e es) hparams
    rw [← hes, SortedMap.ofList_entries, hes] at hquery
    rw [queryChars, (ofChars_eq s hop.authority _ hq).1]
    · exact ofParts_of_canonical s h hquery
    · exact fun hnil => nomatch hnil

end SshHop

/-! ## Schemes -/

namespace Text

theorem isPrefixOf?_eq_none_iff {p s : List Char} : p.isPrefixOf? s = none ↔ ¬ p <+: s := by
  rw [Option.eq_none_iff_forall_ne_some]
  simp only [ne_eq, List.isPrefixOf?_eq_some_iff_append_eq]
  exact not_exists.symm

/-- A text can be cut where it has the separator. -/
theorem isSome_cutAt_iff {sep s : List Char} : (cutAt sep s).isSome ↔ sep <:+: s := by
  induction s with
  | nil =>
    unfold cutAt
    split <;> simp_all
  | cons x s ih =>
    rw [cutAt, List.infix_cons_iff]
    split
    next rest hr => simp [show sep <+: x :: s from ⟨rest, List.append_eq_of_isPrefixOf?_eq_some hr⟩]
    next hr => simp [isPrefixOf?_eq_none_iff.1 hr, ih]

end Text

/-! ## Endpoints -/

namespace Endpoint

/-- Only a host can hold the mark of a scheme: no port does, nor the colon before it. -/
theorem mark_infix_of_host {host : List Char} {port : Port}
    (h : schemeMark <:+: host ++ ':' :: port.chars) : schemeMark <:+: host := by
  have hslash : '/' ∉ port.chars := fun hmem => by
    have := Text.digitValue?_of_mem_digits hmem
    revert this; decide
  have hcolon : ':' ∉ port.chars := fun hmem => by
    have := Text.digitValue?_of_mem_digits hmem
    revert this; decide
  induction host with
  | nil =>
    rcases List.infix_cons_iff.1 h with hfront | hinside
    · have hmem := (List.cons_prefix_cons.1 hfront).2.subset (List.mem_cons_self ..)
      exact absurd hmem hslash
    · exact absurd (hinside.subset (List.mem_cons_self ..)) hcolon
  | cons x host ih =>
    rcases List.infix_cons_iff.1 h with hfront | hinside
    · -- The two slashes have to stand before the last colon.
      match host with
      | [] => simp [schemeMark, List.cons_prefix_cons] at hfront
      | [y] => simp [schemeMark, List.cons_prefix_cons] at hfront
      | y :: z :: host =>
        simp only [schemeMark, List.append_eq, List.cons_append, List.cons_prefix_cons] at hfront
        obtain ⟨rfl, rfl, rfl, -⟩ := hfront
        exact ⟨[], host, rfl⟩
    · exact List.infix_cons_iff.2 (.inr (ih hinside))

theorem mark_infix_of_unix {s : List Char} (h : unixScheme <+: s) : schemeMark <:+: s := by
  obtain ⟨rest, rfl⟩ := h
  exact ⟨['u', 'n', 'i', 'x'], rest, rfl⟩

theorem mark_infix_of_ssh {s : List Char} (h : SshHop.scheme <+: s) : schemeMark <:+: s := by
  obtain ⟨rest, rfl⟩ := h
  exact ⟨['s', 's', 'h'], rest, rfl⟩

/-- A text without the mark of a scheme is read from its last colon. -/
theorem parse_of_no_mark {s : String} (h : ¬ schemeMark <:+: s.toList) :
    parse s = ofHostPort s := by
  have hunix := Text.isPrefixOf?_eq_none_iff.2 (mt mark_infix_of_unix h)
  have hssh := Text.isPrefixOf?_eq_none_iff.2 (mt mark_infix_of_ssh h)
  have hcut := mt Text.isSome_cutAt_iff.1 h
  unfold parse
  rw [hunix, hssh]
  simp only [hcut, if_false, Bool.false_eq_true]

/-- A host and a port are read back. -/
theorem parse_hostPort {host : List Char} (port : Port) (h : ¬ schemeMark <:+: host) :
    parse (String.ofList (host ++ ':' :: port.chars)) =
      .ok (if host = [] then listen port else tcp (String.ofList host) port) := by
  have hcolon : ':' ∉ port.chars := fun hmem => by
    have := Text.digitValue?_of_mem_digits hmem
    revert this; decide
  rw [parse_of_no_mark fun hm => h (mark_infix_of_host (by simpa using hm))]
  simp [ofHostPort, Text.cutLast_append hcolon, Port.ofChars?_chars]

/-- Reading makes canonical endpoints. -/
theorem canonical_of_parse {s : String} {e : Endpoint} (h : parse s = .ok e) : e.Canonical := by
  by_cases hmark : schemeMark <:+: s.toList
  · unfold parse at h
    split at h
    next path hunix =>
      split at h
      next hslash =>
        cases h
        cases path with
        | nil => cases hslash
        | cons c path =>
          cases hslash
          exact ⟨path, by simp⟩
      · cases h
    next hunix =>
      split at h
      next rest hssh =>
        cases hhop : SshHop.ofChars s rest with
        | error err => rw [hhop] at h; cases h
        | ok hop =>
          rw [hhop] at h
          cases h
          exact SshHop.canonical_of_ofChars hhop
      next hssh =>
        rw [if_pos (Text.isSome_cutAt_iff.2 hmark)] at h
        cases h
        exact ⟨hmark, Text.isPrefixOf?_eq_none_iff.1 hunix, Text.isPrefixOf?_eq_none_iff.1 hssh⟩
  · rw [parse_of_no_mark hmark] at h
    unfold ofHostPort at h
    split at h
    · cases h
    next host digits hcut =>
      split at h
      · cases h
      next port hport =>
        cases h
        obtain ⟨hs, -⟩ := Text.eq_of_cutLast hcut
        split
        · trivial
        next hne =>
          refine ⟨by simpa using hne, fun hinside => hmark ?_⟩
          rw [hs]
          exact (by simpa using hinside : schemeMark <:+: host).trans (List.prefix_append ..).isInfix

/-- A canonical endpoint is read back from its text. -/
theorem parse_text_of_canonical {e : Endpoint} (h : e.Canonical) : parse e.text = .ok e := by
  cases e with
  | listen port =>
    have hmark : ¬ schemeMark <:+: [] := by simp [schemeMark]
    have hread := parse_hostPort port hmark
    rw [if_pos rfl] at hread
    exact hread
  | tcp host port =>
    obtain ⟨hne, hmark⟩ := h
    have hread := parse_hostPort port hmark
    have hne' : host.toList ≠ [] := by simpa using hne
    rw [if_neg hne', String.ofList_toList] at hread
    exact hread
  | unix path =>
    obtain ⟨rest, hrest⟩ := h
    have hhead : path.toList.head? = some '/' := by rw [← hrest]; rfl
    unfold parse text chars
    rw [String.toList_ofList, List.isPrefixOf?_eq_some_iff_append_eq.2 rfl]
    simp [hhead]
  | ssh hop =>
    have hread := SshHop.ofChars_of_canonical (ssh hop).text h
    have hunix : unixScheme.isPrefixOf? hop.chars = none := rfl
    have hchars : hop.chars =
        SshHop.scheme ++ (hop.authority ++ SshHop.queryChars hop.params.entries) := by
      unfold SshHop.chars SshHop.authority
      cases hop.user <;> simp
    have hssh : SshHop.scheme.isPrefixOf? hop.chars =
        some (hop.authority ++ SshHop.queryChars hop.params.entries) := by
      rw [hchars, List.isPrefixOf?_eq_some_iff_append_eq.2 rfl]
    unfold parse
    unfold text chars at hread ⊢
    rw [String.toList_ofList, hunix, hssh]
    simp only [hread]
    rfl
  | proxy uri =>
    obtain ⟨hmark, hunix, hssh⟩ := h
    have hcut := Text.isSome_cutAt_iff.2 hmark
    unfold parse text chars
    rw [String.ofList_toList, Text.isPrefixOf?_eq_none_iff.2 hunix,
      Text.isPrefixOf?_eq_none_iff.2 hssh]
    simp [hcut]

/-- A text that is read is an endpoint that its own text names again, and an endpoint is read
back from its text if and only if it is canonical. -/
theorem parse_text : (∀ s e, parse s = .ok e → parse e.text = .ok e) ∧
    ∀ e, parse e.text = .ok e ↔ e.Canonical :=
  ⟨fun _ _ h => parse_text_of_canonical (canonical_of_parse h),
    fun _ => ⟨canonical_of_parse, parse_text_of_canonical⟩⟩

/-- A hop with an at sign in its user, a plus sign before its port and an empty key. -/
def oddHop : SshHop :=
  ⟨some "a@b", "h:+22", ((∅ : SortedMap String String).insert "" "x").insert "k" "2"⟩

/-- Of a key that comes twice the last value is kept, and an empty piece is not written again. -/
theorem parse_text_oddHop : parse "ssh://a@b@h:+22?k=1&&=x&k=2" = .ok (ssh oddHop) ∧
    (ssh oddHop).text = "ssh://a@b@h:+22?=x&k=2" ∧ parse (ssh oddHop).text = .ok (ssh oddHop) := by
  have hread : parse "ssh://a@b@h:+22?k=1&&=x&k=2" = .ok (ssh oddHop) := by rfl
  exact ⟨hread, by rfl, parse_text.1 _ _ hread⟩

end Endpoint

end HubFederation
