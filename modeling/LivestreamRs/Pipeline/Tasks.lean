import LivestreamRs.Pipeline.FanOut

/-! # Pads and task loops

The channel pads of `livestream-core/src/pad.rs` and the loops `run_processor` and `run_sink` of
`livestream-pipeline/src/task.rs`. A step of a task is one action between two points at which another task can
run: a receive with the processing of the received packet, one send of `fan_out`, one `consume`. Both loops
are generic in the node they run; a node works on a shared state through the operations given to it.
-/
namespace LivestreamRs.Pipeline
set_option autoImplicit false

/-! ## Pads -/

/-- An mpsc channel made by `new_channel`: first in, first out, and closed for its receiver only when it is
empty and its senders are gone. -/
structure Pad (α : Type) where
  capacity : ℕ
  queue : List α := []
  senderAlive : Bool := true
  receiverAlive : Bool := true

inductive RecvResult (α : Type)
  | item (a : α)
  -- `None`: all senders are dropped
  | closed
  | waiting

namespace Pad
variable {α : Type} (pad : Pad α)

def sendResult : SendResult :=
  if !pad.receiverAlive then .closed else if pad.queue.length < pad.capacity then .ok else .full

def send (a : α) : Pad α :=
  match pad.sendResult with
  | .ok => { pad with queue := pad.queue ++ [a] }
  | _ => pad

def recvResult : RecvResult α :=
  match pad.queue with
  | a :: _ => .item a
  | [] => if pad.senderAlive then .waiting else .closed

def recv : Pad α := { pad with queue := pad.queue.tail }

def dropSender : Pad α := { pad with senderAlive := false }

def dropReceiver : Pad α := { pad with receiverAlive := false }

end Pad

/-- `DemandSignal`: the number of its live handles. -/
structure DemandSignal where
  count : ℕ := 0
  alwaysWanted : Bool := false

namespace DemandSignal
variable (sig : DemandSignal)

def isWanted : Bool := sig.alwaysWanted || decide (0 < sig.count)

def newHandle : DemandSignal := { sig with count := sig.count + 1 }

def dropHandle : DemandSignal := { sig with count := sig.count - 1 }

end DemandSignal

/-! ## `run_processor` -/

/-- Which branch of a `select!` is taken when several are ready. -/
inductive Wake
  | input
  | cancelled
  deriving DecidableEq

/-- A node of the `Processor` trait, by what its methods do to the state the tasks share. -/
structure Processor (σ α β : Type) where
  shouldProcess : σ → Bool
  recvResult : σ → RecvResult α
  recv : σ → σ
  process : α → σ → σ × List β
  outputs : List ℕ
  send : ℕ → β → σ → σ × SendResult
  -- the last reference to the node is dropped with its task: its pads go
  drop : σ → σ

inductive ProcessorTask (β : Type)
  -- at the top of the loop
  | looping
  -- in `fan_out`: the item being offered with the pads it is still to be offered to, and the items after it
  | offering (item : β) (pad : ℕ) (pads : List ℕ) (results : List β)
  | ended

/-- `fan_out` from its next item on. -/
def ProcessorTask.deliver {β : Type} (outputs : List ℕ) : List β → ProcessorTask β
  | [] => .looping
  | item :: results =>
    match outputs with
    | [] => .looping
    | pad :: pads => .offering item pad pads results

namespace Processor
variable {σ α β : Type} (P : Processor σ α β)

/-- After the send of an item to one pad. -/
def afterSend (item : β) (pads : List ℕ) (results : List β) (result : SendResult) : ProcessorTask β :=
  if deliverToPad result then
    match pads with
    | [] => .deliver P.outputs results
    | pad :: pads => .offering item pad pads results
  else .deliver P.outputs results

def step (cancelled : Bool) (wake : Wake) : ProcessorTask β → σ → Option (ProcessorTask β × σ)
  | .looping, s =>
    match wake with
    | .cancelled => if cancelled then some (.ended, P.drop s) else none
    | .input =>
      -- without demand the loop sleeps and looks again
      if !P.shouldProcess s then some (.looping, s)
      else
        match P.recvResult s with
        | .item pkt =>
          let (s, results) := P.process pkt (P.recv s)
          some (.deliver P.outputs results, s)
        | .closed => some (.ended, P.drop s)
        | .waiting => none
  | .offering item pad pads results, s =>
    let (s, result) := P.send pad item s
    some (P.afterSend item pads results result, s)
  | .ended, _ => none

/-- The result of the send the task makes next. -/
def nextSend : ProcessorTask β → σ → Option SendResult
  | .offering item pad _ _, s => some (P.send pad item s).2
  | _, _ => none

/-- All that a step of the loop can do. -/
inductive Stepped (P : Processor σ α β) (cancelled : Bool) (s : σ) :
    ProcessorTask β → ProcessorTask β → σ → Prop
  | cancelled (h : cancelled = true) : Stepped P cancelled s .looping .ended (P.drop s)
  | unwanted (h : P.shouldProcess s = false) : Stepped P cancelled s .looping .looping s
  | packet (pkt : α) (h : P.recvResult s = .item pkt) :
      Stepped P cancelled s .looping (.deliver P.outputs (P.process pkt (P.recv s)).2)
        (P.process pkt (P.recv s)).1
  | inputEnded (h : P.recvResult s = .closed) : Stepped P cancelled s .looping .ended (P.drop s)
  | offer (item : β) (pad : ℕ) (pads : List ℕ) (results : List β) :
      Stepped P cancelled s (.offering item pad pads results)
        (P.afterSend item pads results (P.send pad item s).2) (P.send pad item s).1

theorem stepped_of_step {P : Processor σ α β} {cancelled : Bool} {wake : Wake} {task task' : ProcessorTask β}
    {s s' : σ} (h : P.step cancelled wake task s = some (task', s')) : P.Stepped cancelled s task task' s' := by
  cases task with
  | looping =>
    cases wake with
    | cancelled =>
      simp only [step] at h
      split at h
      · next hc =>
        obtain ⟨rfl, rfl⟩ := Prod.mk.inj (Option.some.inj h)
        exact .cancelled hc
      · cases h
    | input =>
      simp only [step] at h
      split at h
      · next hwanted =>
        obtain ⟨rfl, rfl⟩ := Prod.mk.inj (Option.some.inj h)
        exact .unwanted (by simpa using hwanted)
      · split at h
        · next pkt hpkt =>
          obtain ⟨rfl, rfl⟩ := Prod.mk.inj (Option.some.inj h)
          exact .packet pkt hpkt
        · next hclosed =>
          obtain ⟨rfl, rfl⟩ := Prod.mk.inj (Option.some.inj h)
          exact .inputEnded hclosed
        · cases h
  | offering item pad pads results =>
    obtain ⟨rfl, rfl⟩ := Prod.mk.inj (Option.some.inj h)
    exact .offer item pad pads results
  | ended => cases h

/-- What every method of a node keeps, its task keeps; the node is dropped when the task is cancelled or its input ends. -/
theorem step_keeps {P : Processor σ α β} {I : σ → Prop} {cancelled : Bool} {wake : Wake} {task task' : ProcessorTask β}
    {s s' : σ} (hrecv : ∀ s, I s → I (P.recv s)) (hprocess : ∀ pkt s, I s → I (P.process pkt s).1)
    (hsend : ∀ pad item s, I s → I (P.send pad item s).1)
    (hdrop : cancelled = true ∨ P.recvResult s = .closed → I (P.drop s)) (hs : I s)
    (h : P.step cancelled wake task s = some (task', s')) : I s' := by
  cases stepped_of_step h with
  | cancelled hcancelled => exact hdrop (.inl hcancelled)
  | unwanted => exact hs
  | packet pkt => exact hprocess pkt _ (hrecv s hs)
  | inputEnded hclosed => exact hdrop (.inr hclosed)
  | offer item pad => exact hsend pad item s hs

section Enabled
variable {P : Processor σ α β} {cancelled : Bool} {s : σ}

theorem step_packet {pkt : α} (hwanted : P.shouldProcess s = true) (h : P.recvResult s = .item pkt) :
    P.step cancelled .input .looping s =
      some (.deliver P.outputs (P.process pkt (P.recv s)).2, (P.process pkt (P.recv s)).1) := by
  simp [step, hwanted, h]

theorem step_inputEnded (hwanted : P.shouldProcess s = true) (h : P.recvResult s = .closed) :
    P.step cancelled .input .looping s = some (.ended, P.drop s) := by
  simp [step, hwanted, h]

end Enabled

/-- The sends of `fan_out` in a row. -/
inductive Offers (P : Processor σ α β) : ProcessorTask β → σ → ProcessorTask β → σ → Prop
  | done (task : ProcessorTask β) (s : σ) : Offers P task s task s
  | send (item : β) (pad : ℕ) (pads : List ℕ) (results : List β) (s : σ) (task : ProcessorTask β) (s' : σ)
      (rest : Offers P (P.afterSend item pads results (P.send pad item s).2) (P.send pad item s).1 task s') :
      Offers P (.offering item pad pads results) s task s'

variable {P}

/-- The rest of the loop over the pads for one item. -/
theorem offers_item (item : β) (results : List β) (pad : ℕ) (pads : List ℕ) (s : σ) (task : ProcessorTask β)
    (s' : σ) (h : Offers P (.deliver P.outputs results) (offerItem P.send item (pad :: pads) s) task s') :
    Offers P (.offering item pad pads results) s task s' := by
  induction pads generalizing pad s with
  | nil =>
    refine .send item pad [] results s task s' ?_
    by_cases hclosed : (P.send pad item s).2 = .closed
    · rw [offerItem_closed _ hclosed] at h
      simpa [afterSend, hclosed, deliverToPad] using h
    · rw [offerItem_open _ hclosed, offerItem] at h
      simpa [afterSend] using h
  | cons next pads ih =>
    refine .send item pad (next :: pads) results s task s' ?_
    by_cases hclosed : (P.send pad item s).2 = .closed
    · rw [offerItem_closed _ hclosed] at h
      simpa [afterSend, hclosed, deliverToPad] using h
    · rw [offerItem_open _ hclosed] at h
      have hgo : deliverToPad (P.send pad item s).2 = true := by
        cases hr : (P.send pad item s).2 with
        | ok | full => rfl
        | closed => exact absurd hr hclosed
      simpa [afterSend, hgo] using ih next _ h

/-- A task that is not interrupted delivers a batch as `fan_out` does, and is then back at its loop. -/
theorem offers_fanOut (results : List β) (s : σ) :
    Offers P (.deliver P.outputs results) s .looping (fanOut P.send P.outputs results s) := by
  induction results generalizing s with
  | nil => exact .done .looping s
  | cons item results ih =>
    have hrest := ih (offerItem P.send item P.outputs s)
    have hloop : P.outputs = [] → ∀ batch : List β, ProcessorTask.deliver P.outputs batch = .looping := by
      intro hnil batch
      rw [hnil]
      cases batch <;> rfl
    cases houtputs : P.outputs with
    | nil =>
      rw [hloop houtputs, houtputs] at hrest
      rw [← houtputs, hloop houtputs, houtputs]
      exact hrest
    | cons pad pads =>
      rw [houtputs] at hrest
      refine offers_item item results pad pads s _ _ ?_
      rw [houtputs]
      exact hrest

end Processor
end LivestreamRs.Pipeline
