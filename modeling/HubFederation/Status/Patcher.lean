import HubFederation.Status.Board

/-!
# Writing statuses

The patcher takes updates out of the outbox and sends them, one at a time. Each one
is written, refused, or given up when no answer comes in time; one that no request can
carry counts as refused. After a refusal or a lost answer the board forgets that it
handed the status out.

* `drain` sends what waits; `run` first waits for the answer that is still due.
-/
namespace HubFederation

/-- How the control cluster answers a patch. -/
inductive Reply where
  | written
  | refused
  | silence
  deriving DecidableEq, Repr

/-- mirrors `status.Controller` -/
structure Patcher where
  /-- How long an answer is waited for, in milliseconds. -/
  timeout : Nat
  /-- The answers to come. After them every patch is written. -/
  replies : List Reply
  /-- An update without an answer yet, and how long one will be waited for. -/
  waiting : Option (Update × Nat)
  written : Nat
  refused : Nat
  timedOut : Nat
  deriving DecidableEq, Repr

namespace Patcher

/-- What became of sending. -/
structure Outcome where
  patcher : Patcher
  board : StatusBoard
  /-- The updates that were sent, in order. -/
  sent : List Update
  deriving DecidableEq

/-- The answer to the next patch. -/
def nextReply (p : Patcher) : Reply × Patcher :=
  (p.replies.headD .written, { p with replies := p.replies.tail })

def giveUp (p : Patcher) : Patcher := { p with waiting := none, timedOut := p.timedOut + 1 }

/-- Sends the updates of `queue` for as long as `left` milliseconds last. Without any time
to wait for an answer, an update is given up before it is sent.
mirrors the loop of `status.Controller.run` -/
def drain (p : Patcher) (b : StatusBoard) (left : Nat) : List Update → Outcome
  | [] => ⟨p, { b with outbox := { b.outbox with queue := [] } }, []⟩
  | u :: queue =>
    if u.request?.isNone then
      drain { p with refused := p.refused + 1 } (b.patchFailed u.id) left queue
    else if p.timeout = 0 then drain p.giveUp (b.patchFailed u.id) left queue
    else
      let (reply, p) := p.nextReply
      let o := match reply with
        | .written => drain { p with written := p.written + 1 } b left queue
        | .refused => drain { p with refused := p.refused + 1 } (b.patchFailed u.id) left queue
        | .silence =>
          if p.timeout ≤ left then drain p.giveUp (b.patchFailed u.id) (left - p.timeout) queue
          else ⟨{ p with waiting := some (u, p.timeout - left) },
            { b with outbox := { b.outbox with queue } }, []⟩
      { o with sent := u :: o.sent }

/-- Lets `ms` milliseconds pass.
mirrors `status.Controller.run` -/
def run (p : Patcher) (b : StatusBoard) (ms : Nat) : Outcome :=
  match p.waiting with
  | none => drain p b ms b.outbox.queue
  | some (u, due) =>
    if due ≤ ms then drain p.giveUp (b.patchFailed u.id) (ms - due) b.outbox.queue
    else ⟨{ p with waiting := some (u, due - ms) }, b, []⟩

end Patcher

end HubFederation
