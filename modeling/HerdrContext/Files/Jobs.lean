import HerdrContext.Worker.Runtime

/-! The background jobs of one key as their owner sees them: a newer job takes
the place of the last one, and only the newest ends in a delivery. -/
namespace HerdrContext.Files

/-- `room` is what the queue answers to the submissions that are not stale, in
order; a raised flag belongs to the job under way. -/
structure JobSlot (ι : Type) where
  room : Nat → Bool
  asked : Nat
  latest : Option Nat
  newest : Option (Nat × ι)
  raised : Bool

namespace JobSlot

variable {ι : Type}

def new (room : Nat → Bool) : JobSlot ι := ⟨room, 0, none, none, false⟩

variable (slot : JobSlot ι) (generation : Nat) (job : ι)

/-- Accepted are `Queued` and `Coalesced`; the owner treats the other answers
alike. -/
def accepts : Bool :=
  slot.room slot.asked && decide (∀ last ∈ slot.latest, last < generation)

def submit : JobSlot ι × Bool :=
  if slot.accepts generation then
    ({ slot with
      asked := slot.asked + 1
      latest := some generation
      newest := some (generation, job)
      raised := false }, true)
  else ({ slot with asked := slot.asked + 1 }, false)

/-- The newest job has ended and its result is handed over. -/
def ended : JobSlot ι := { slot with newest := none, raised := false }

/-- Raise the flag the job polls. -/
def raise : JobSlot ι := { slot with raised := true }

/-- A job that is under way is the latest accepted one. -/
def Valid : Prop := ∀ generation job, slot.newest = some (generation, job) →
  slot.latest = some generation

section
variable {slot generation job}

theorem submit_accepted (h : slot.accepts generation = true) :
    slot.submit generation job =
      ({ slot with
        asked := slot.asked + 1
        latest := some generation
        newest := some (generation, job)
        raised := false }, true) := by
  rw [submit, if_pos h]

theorem submit_refused (h : slot.accepts generation = false) :
    slot.submit generation job = ({ slot with asked := slot.asked + 1 }, false) := by
  rw [submit, if_neg (by rw [h]; simp)]

end

end JobSlot

end HerdrContext.Files
