import Mathlib
import Paradigm.Proofs.Storage.Calls
import Paradigm.Proofs.Storage.PlainArray

/-!
# Reading in the order of writing

Whatever is written one after the other is read back by the calls that mirror the steps of the
writer, at the same places.  What one step writes is read back by its call wherever it was written;
a run of steps follows by induction, and each step moves the reader to the place that the writer had
reached, so that also padding, which depends on the place, has the same length.

## Main definitions

* `Writer.Step`, `Writer.writeAll`: steps of a writer, with the places that a run of them reaches
* `Writer.Step.mirror`: the call that undoes a step
* `Reader.Call.runAll`: a run of calls, with what they give and the places that they reach

## Main results

* `Writer.Step.readsBack_write`: one step is read back
* `Writer.Step.readsBack_writeAll`: a run of steps is read back
* `Writer.Step.mirror_reads`: all that was written to an empty writer is read back
-/

namespace Paradigm

open Reader (Answer Call)

/-! ## Runs of calls -/

/-- Makes the calls one after the other. -/
def Reader.Call.runAll : List Call → Reader (List (Answer × Nat))
  | [] => pure []
  | call :: calls => do
    let a ← call.run
    let q := (← get).position
    return (a, q) :: (← runAll calls)

namespace Writer

/-! ## Steps of a writer -/

/-- The steps of a writer. -/
inductive Step where
  | put (kind : IntKind) (a : kind.Carrier)
  | putAll (kind : IntKind) (as : List kind.Carrier)
  | putCount (n : Nat)
  | putArray (kind : IntKind) (a : PlainArray kind.Carrier)
  | padTo (align : Nat)

namespace Step

/-- What a step writes. -/
def write (out : Writer) : Step → Except StorageError Writer
  | put _ a => .ok (out.put a)
  | putAll _ as => .ok (out.putAll as)
  | putCount n => out.putCount n
  | putArray _ a => .ok (out.putArray a)
  | padTo align => .ok (out.padTo align)

/-- Numbers of elements have 31 bits, and places are aligned to multiples of a positive number. -/
def Allowed : Step → Prop
  | putCount n => n < countLimit
  | padTo align => 1 ≤ align
  | _ => True

/-- The call that reads what the step writes. -/
def mirror : Step → Call
  | put kind _ => .read kind
  | putAll kind as => .readArray kind as.length
  | putCount _ => .readCount
  | putArray kind a => .readPlainArray kind a.size
  | padTo align => .skipPadding align

/-- What a call gives that reads what the step wrote: the same value, or an array in place that no
query tells from the one that was written. -/
def Gives : Step → Answer → Prop
  | put kind a, r => r = .value kind a
  | putAll kind as, r => r = .values kind as
  | putCount n, r => r = .count n
  | putArray kind a, r => ∃ b, r = .array kind b ∧ b.mapped = true ∧ a.SameAnswers b
  | padTo _, r => r = .nothing

/-- Takes the steps one after the other, and tells which place each one reaches. -/
def writeAll : List Step → Writer → Except StorageError (Writer × List Nat)
  | [], out => .ok (out, [])
  | step :: steps, out => do
    let mid ← step.write out
    let (last, places) ← writeAll steps mid
    return (last, mid.position :: places)

/-! ## Steps are read back -/

/-- One step is read back by its mirror. -/
theorem readsBack_write {step : Step} (hallowed : step.Allowed) (out : Writer) :
    ∃ out' r, step.write out = .ok out' ∧ step.Gives r ∧ ReadsBack out out' step.mirror.run r := by
  cases step with
  | put kind a => exact ⟨_, _, rfl, rfl, (readsBack_put out a).map _⟩
  | putAll kind as => exact ⟨_, _, rfl, rfl, (readsBack_putAll out as).map _⟩
  | putCount n =>
    have hput : out.putCount n = .ok (out.put (Int32.ofNat n)) := if_pos hallowed
    exact ⟨_, _, hput, rfl, (readsBack_putCount hput).map _⟩
  | putArray kind a =>
    exact ⟨_, _, rfl, ⟨_, rfl, a.mapped_mappedForm, a.sameAnswers_mappedForm⟩,
      (readsBack_putArray out a).map _⟩
  | padTo align => exact ⟨_, _, rfl, rfl, (readsBack_padTo out align).map _⟩

/-- A run of steps is read back by the mirrored calls, with the places that it reached. -/
theorem readsBack_writeAll {steps : List Step} (hallowed : ∀ step ∈ steps, step.Allowed)
    (out : Writer) : ∃ out' places results, writeAll steps out = .ok (out', places) ∧
      List.Forall₂ Gives steps (results.map Prod.fst) ∧ results.map Prod.snd = places ∧
      ReadsBack out out' (Call.runAll (steps.map mirror)) results := by
  induction steps generalizing out with
  | nil => exact ⟨out, [], [], rfl, .nil, rfl, ReadsBack.pure out []⟩
  | cons step steps ih =>
    obtain ⟨mid, r, hwrite, hgives, hback⟩ :=
      readsBack_write (hallowed step List.mem_cons_self) out
    obtain ⟨out', places, results, hwrites, hall, hplaces, hbacks⟩ :=
      ih (fun s hs => hallowed s (List.mem_cons_of_mem _ hs)) mid
    refine ⟨out', mid.position :: places, (r, mid.position) :: results, ?_, .cons hgives hall,
      congrArg _ hplaces, hback.bind ?_⟩
    · rw [writeAll, hwrite]
      show (writeAll steps mid >>= _) = _
      rw [hwrites]
      rfl
    -- behind the first call the reader stands where the writer stood behind the first step
    · exact ReadsBack.get (g := fun q => do return (r, q) :: (← Call.runAll (steps.map mirror)))
        (fun _ => rfl) (hbacks.map _)

/-- **What is written in order is read in the same order.**  Every run of allowed steps on an empty
writer succeeds; on the view of what it wrote the mirrored calls succeed, give what was written,
reach the same places one after the other, and leave nothing to read. -/
theorem mirror_reads (steps : List Step) (hallowed : ∀ step ∈ steps, step.Allowed) :
    ∃ out places results c, writeAll steps .empty = .ok (out, places) ∧
      Call.runAll (steps.map mirror) (.start out.toView) = .ok results c ∧
      List.Forall₂ Gives steps (results.map Prod.fst) ∧ results.map Prod.snd = places ∧
      c.remaining = 0 := by
  obtain ⟨out, places, results, hwrite, hall, hplaces, hback⟩ :=
    readsBack_writeAll hallowed Writer.empty
  obtain ⟨hstop, hread⟩ := hback.reads out.toView (by simp) (Nat.zero_le _)
  exact ⟨out, places, results, _, hwrite, hread, hall, hplaces, Nat.sub_self _⟩

/-- Values of several sizes with padding between them. -/
theorem mirror_reads_mixed :
    let steps : List Step :=
      [.put .int8 (-3), .padTo 8, .putAll .uint16 [10, 20, 30], .putCount 2,
        .putArray .int64 (.ofList [3, -1]), .padTo 8]
    (∀ step ∈ steps, step.Allowed) ∧
      ∃ out results c, writeAll steps .empty = .ok (out, [1, 8, 14, 18, 34, 40]) ∧
        Call.runAll (steps.map mirror) (.start out.toView) = .ok results c ∧
        List.Forall₂ Gives steps (results.map Prod.fst) ∧
        results.map Prod.snd = [1, 8, 14, 18, 34, 40] ∧ c.remaining = 0 := by
  intro steps
  have hallowed : ∀ step ∈ steps, step.Allowed := by
    simp [steps, Allowed, countLimit]
  obtain ⟨out, places, results, c, hwrite, hread, hall, hplaces, hrest⟩ :=
    mirror_reads steps hallowed
  have hreached : (writeAll steps .empty).map Prod.snd = .ok [1, 8, 14, 18, 34, 40] := by rfl
  rw [hwrite] at hreached
  obtain rfl : places = [1, 8, 14, 18, 34, 40] := Except.ok.inj hreached
  exact ⟨hallowed, out, results, c, hwrite, hread, hall, hplaces, hrest⟩

end Step

end Writer

end Paradigm
