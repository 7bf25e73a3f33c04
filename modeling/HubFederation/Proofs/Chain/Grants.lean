import HubFederation.Chain.Bound
import HubFederation.Proofs.Chain.Joints

/-!
# Chains and what they are granted

A chain works only if every hub that it dials grants what it asks for there, and a hub is
safe only if it grants nothing else. `Chain.Asks` says what a chain asks for, hop by hop,
without the walk that collects grants.

* `Side.mem_grants_iff`: the grants of a stack are what its hops have to be granted.
* `Chain.mem_grants_iff`: the grants of a chain are what it asks for.
* `getElem?_authenticateStack`: what a stack looks like once its hops log in.
-/
namespace HubFederation

/-- What the hop at a position of a stack has to be granted: for the first hop the local
end of the stack, for each further one the address that the hop before it dials. -/
inductive Prescribed (stack : List Endpoint) : Side → Nat → RequestKind → String → Prop where
  | dialSocket (path : String) : stack[0]? = some (.unix path) →
      Prescribed stack .proxy 1 .directStreamlocal path
  | bindSocket (path : String) : stack[0]? = some (.unix path) →
      Prescribed stack .bind 1 .streamlocalForward path
  | dialEnd (e : Endpoint) : stack[0]? = some e → e.isUnix = false →
      Prescribed stack .proxy 1 .directTcpip e.text
  | bindEnd (e : Endpoint) : stack[0]? = some e → e.isUnix = false →
      Prescribed stack .bind 1 .tcpipForward e.text
  | relay (side : Side) (i : Nat) (e : Endpoint) (address : String) : stack[i + 1]? = some e →
      e.address = some address → Prescribed stack side (i + 2) .directTcpip address

namespace Chain

def stack (c : Chain) : Side → List Endpoint
  | .bind => c.bind
  | .proxy => c.proxy

/-- The chain has a hop to `hub`, behind a local end, that has to be granted `target`. -/
def Asks (c : Chain) (hub : String) (kind : RequestKind) (target : String) : Prop :=
  ∃ side i hop, 1 ≤ i ∧ (c.stack side)[i]? = some (.ssh hop) ∧ hop.targetHub = some hub ∧
    Prescribed (c.stack side) side i kind target

end Chain

namespace Side

/-! ## The grants of a stack -/

theorem mem_relayGrants_cons {previous e : Endpoint} {rest : List Endpoint} {g : Grant} :
    g ∈ relayGrants previous (e :: rest) ↔
      (∃ hop, e = .ssh hop ∧ hop.targetHub = some g.hub ∧ g.kind = .directTcpip ∧
        previous.address = some g.target) ∨ g ∈ relayGrants e rest := by
  obtain ⟨hub, kind, target⟩ := g
  cases e with
  | ssh hop =>
    rw [relayGrants]
    simp only
    split
    next hub' address hh ha => simp [hh, ha, eq_comm]
    next hne =>
      constructor
      · exact .inr
      · intro h
        rcases h with ⟨hop', he, hh, -, ha⟩ | h
        · cases he; exact absurd ha (hne _ _ hh)
        · exact h
  | listen | tcp | unix | proxy => simp [relayGrants]

/-- The grants for relays, by position; `previous` is the endpoint before them. -/
theorem mem_relayGrants_iff {g : Grant} {rest : List Endpoint} {previous : Endpoint} :
    g ∈ relayGrants previous rest ↔ ∃ (i : Nat) (hop : SshHop) (e : Endpoint),
      rest[i]? = some (.ssh hop) ∧ hop.targetHub = some g.hub ∧ (previous :: rest)[i]? = some e ∧
        g.kind = .directTcpip ∧ e.address = some g.target := by
  induction rest generalizing previous with
  | nil => simp [relayGrants]
  | cons e rest ih =>
    rw [mem_relayGrants_cons, ih]
    constructor
    · intro h
      rcases h with ⟨hop, rfl, hh, hk, ha⟩ | ⟨i, hop, e', hi, hh, he, hk, ha⟩
      · exact ⟨0, hop, previous, rfl, hh, rfl, hk, ha⟩
      · exact ⟨i + 1, hop, e', hi, hh, he, hk, ha⟩
    · intro ⟨i, hop, e', hi, hh, he, hk, ha⟩
      cases i with
      | zero => cases hi; cases he; exact .inl ⟨hop, rfl, hh, hk, ha⟩
      | succ i => exact .inr ⟨i, hop, e', hi, hh, he, hk, ha⟩

theorem ask_of_not_unix {last : Endpoint} (h : last.isUnix = false) :
    bind.ask last = (.tcpipForward, last.text) ∧ proxy.ask last = (.directTcpip, last.text) := by
  cases last with
  | unix path => cases h
  | listen | tcp | ssh | proxy => exact ⟨rfl, rfl⟩

/-- The first hop is asked for the local end. -/
theorem prescribed_one_iff {side : Side} {last : Endpoint} {hops : List Endpoint}
    {kind : RequestKind} {target : String} :
    Prescribed (last :: hops) side 1 kind target ↔ side.ask last = (kind, target) := by
  constructor
  · intro h
    cases h with
    | dialSocket path h => cases h; rfl
    | bindSocket path h => cases h; rfl
    | dialEnd e h hu => cases h; cases last <;> first | rfl | cases hu
    | bindEnd e h hu => cases h; cases last <;> first | rfl | cases hu
  · intro h
    by_cases hu : ∃ path, last = .unix path
    · obtain ⟨path, rfl⟩ := hu
      cases side <;> cases h
      · exact .bindSocket _ rfl
      · exact .dialSocket _ rfl
    · have he : last.isUnix = false := by
        cases last <;> first | rfl | exact absurd ⟨_, rfl⟩ hu
      obtain ⟨hb, hp⟩ := ask_of_not_unix he
      cases side with
      | bind => cases hb.symm.trans h; exact .bindEnd last rfl he
      | proxy => cases hp.symm.trans h; exact .dialEnd last rfl he

/-- A further hop is asked for the address that the hop before it dials. -/
theorem prescribed_relay_iff {side : Side} {stack : List Endpoint} {i : Nat}
    {kind : RequestKind} {target : String} :
    Prescribed stack side (i + 2) kind target ↔
      ∃ e, stack[i + 1]? = some e ∧ kind = .directTcpip ∧ e.address = some target := by
  constructor
  · intro h
    cases h with
    | relay _ _ e _ he ha => exact ⟨e, he, rfl, ha⟩
  · intro ⟨e, he, hk, ha⟩
    subst hk
    exact .relay side i e target he ha

theorem mem_grants_cons {side : Side} {last e : Endpoint} {rest : List Endpoint} {g : Grant} :
    g ∈ side.grants (last :: e :: rest) ↔
      (∃ hop, e = .ssh hop ∧ hop.targetHub = some g.hub ∧ side.ask last = (g.kind, g.target)) ∨
        g ∈ relayGrants e rest := by
  obtain ⟨hub, kind, target⟩ := g
  cases e with
  | ssh hop =>
    rw [grants]
    simp only
    split
    next hub' hh => simp [hh, Prod.ext_iff, eq_comm]
    next hh => simp [hh]
  | listen | tcp | unix | proxy => simp [grants]

/-- The grants of a stack are what its hops have to be granted. -/
theorem mem_grants_iff {side : Side} {g : Grant} {stack : List Endpoint} :
    g ∈ side.grants stack ↔ ∃ (i : Nat) (hop : SshHop), 1 ≤ i ∧ stack[i]? = some (.ssh hop) ∧
      hop.targetHub = some g.hub ∧ Prescribed stack side i g.kind g.target := by
  match stack with
  | [] => simp [grants]
  | [last] =>
    constructor
    · intro h; cases h
    · intro ⟨i, hop, hi, he, _⟩
      rw [List.getElem?_eq_none (by simpa using hi)] at he
      cases he
  | last :: e :: rest =>
    rw [mem_grants_cons, mem_relayGrants_iff]
    constructor
    · intro h
      rcases h with ⟨hop, rfl, hh, ha⟩ | ⟨i, hop, e', hi, hh, he, hk, ha⟩
      · exact ⟨1, hop, Nat.le_refl 1, rfl, hh, prescribed_one_iff.2 ha⟩
      · exact ⟨i + 2, hop, by omega, hi, hh, prescribed_relay_iff.2 ⟨e', he, hk, ha⟩⟩
    · intro ⟨i, hop, hi, he, hh, hp⟩
      match i with
      | 1 => cases he; exact .inl ⟨hop, rfl, hh, prescribed_one_iff.1 hp⟩
      | i + 2 =>
        obtain ⟨e', he', hk, ha⟩ := prescribed_relay_iff.1 hp
        exact .inr ⟨i, hop, e', he, hh, he', hk, ha⟩

end Side

namespace Chain

/-- The grants of a chain are what it asks for. -/
theorem mem_grants_iff {c : Chain} {g : Grant} : g ∈ c.grants ↔ c.Asks g.hub g.kind g.target := by
  rw [grants, List.mem_append, Side.mem_grants_iff, Side.mem_grants_iff]
  constructor
  · intro h
    rcases h with ⟨i, hop, h⟩ | ⟨i, hop, h⟩
    · exact ⟨.proxy, i, hop, h⟩
    · exact ⟨.bind, i, hop, h⟩
  · intro ⟨side, i, hop, h⟩
    cases side with
    | bind => exact .inr ⟨i, hop, h⟩
    | proxy => exact .inl ⟨i, hop, h⟩

/-- Logging in touches the SSH hops behind the local end and nothing else. -/
theorem getElem?_authenticateStack {runner identityFile : String} {stack : List Endpoint}
    {i : Nat} :
    (authenticateStack runner identityFile stack)[i]? = stack[i]?.map fun e =>
      match i, e with
      | _ + 1, .ssh hop => .ssh (hop.authenticate runner identityFile)
      | _, e => e := by
  cases stack with
  | nil => simp [authenticateStack]
  | cons last hops =>
    cases i with
    | zero => simp [authenticateStack]
    | succ i =>
      simp only [authenticateStack, List.getElem?_cons_succ, List.getElem?_map]
      congr 1
      funext e
      cases e <;> rfl

end Chain

end HubFederation
