import Mathlib
import Paradigm.Lexicon
import Paradigm.Proofs.Outcome
import Paradigm.Storage.Writer

/-!
# Outcomes that fail

A computation fails because one of its steps does, so that its failures are known from those of its
steps.  A step that comes behind others is only reached with the values that they gave.

## Main definitions

* `FailsOnly`: all failures of a computation have a property
* `NoRoom`: failures of stored data for want of room
* `Lexicon.Refusal`: failures to compile a lexicon

## Main results

* `FailsOnly.bind`, `FailsOnly.mapM`: the failures of a computation from those of its steps
* `failsOnly_putCount`: numbers that cannot be stored
-/

namespace Paradigm

variable {ε α β : Type}

/-- All failures of a computation have a property. -/
def FailsOnly (P : ε → Prop) (x : Except ε α) : Prop := ∀ e, x = .error e → P e

namespace FailsOnly

variable {P Q : ε → Prop} {x : Except ε α}

theorem ok (a : α) : FailsOnly P (.ok a : Except ε α) := nofun

theorem error {e : ε} (h : P e) : FailsOnly P (.error e : Except ε α) := by
  rintro _ ⟨⟩
  exact h

/-- A computation that succeeds has no failures. -/
theorem of_exists (h : ∃ a, x = .ok a) : FailsOnly P x := by
  obtain ⟨a, rfl⟩ := h
  exact ok a

theorem bind {f : α → Except ε β} (hx : FailsOnly P x) (hf : ∀ a, x = .ok a → FailsOnly P (f a)) :
    FailsOnly P (x >>= f) := by
  cases x with
  | error e => exact error (hx e rfl)
  | ok a => exact hf a rfl

theorem map {f : α → β} (hx : FailsOnly P x) : FailsOnly P (f <$> x) :=
  fun e he => hx e (Except.map_eq_error.1 he)

theorem mapM {f : α → Except ε β} {xs : List α} (h : ∀ x ∈ xs, FailsOnly P (f x)) :
    FailsOnly P (xs.mapM f) := by
  induction xs with
  | nil => exact ok []
  | cons x xs ih =>
    rw [List.mapM_cons]
    refine (h x List.mem_cons_self).bind fun y _ => ?_
    exact (ih fun z hz => h z (List.mem_cons_of_mem _ hz)).bind fun _ _ => ok _

theorem imp (hx : FailsOnly P x) (h : ∀ e, P e → Q e) : FailsOnly Q x := fun e he => h e (hx e he)

/-- A failure of stored data is passed on as one of the engine. -/
theorem lift {P : StorageError → Prop} {Q : Error → Prop} {x : Except StorageError α}
    (hx : FailsOnly P x) (h : ∀ e, P e → Q (.storage e)) :
    FailsOnly Q (liftM x : Except Error α) := by
  cases x with
  | error e => exact error (h e (hx e rfl))
  | ok a => exact ok a

end FailsOnly

/-! ## Want of room -/

/-- A failure to store data that there is no room for: a string of a sorted table that is too long
or lies too far from the start, a record that is wider than a word, or a number of elements that
has more than 31 bits. -/
inductive NoRoom : StorageError → Prop
  | stringTooLarge (length : Nat) : NoRoom (.stringTooLarge length)
  | offsetOverflow : NoRoom .offsetOverflow
  | layoutTooWide : NoRoom .layoutTooWide
  | countTooLarge {count : Nat} (h : countLimit ≤ count) : NoRoom (.corrupt (.countTooLarge count))

theorem failsOnly_putCount (out : Writer) (count : Nat) :
    FailsOnly NoRoom (out.putCount count) := by
  unfold Writer.putCount
  split
  · exact .ok _
  · rename_i hcount
    exact .error (.countTooLarge (Nat.not_lt.1 hcount))

/-- A failure to compile a lexicon: it does not meet a demand, a word lists a pattern that there is
not, or the format has no room for it.  That a grammeme has no bit is none of the demands. -/
inductive Lexicon.Refusal (l : Lexicon) : Error → Prop
  | fault {cause : LexiconFault} (h : ∀ name, cause ≠ .noBit name) :
      Refusal l (.invalidLexicon cause)
  | unknownPattern {w : Lexicon.Word} {name : String} (hw : w ∈ l.words)
      (hlisted : name ∈ w.inflections) (hunknown : name ∉ l.patterns.map Lexicon.Pattern.id) :
      Refusal l (.unknownPattern name)
  | noRoom {cause : StorageError} (h : NoRoom cause) : Refusal l (.storage cause)

/-- What is refused for want of room is refused as a lexicon. -/
theorem FailsOnly.refusal {l : Lexicon} {x : Except StorageError α} (h : FailsOnly NoRoom x) :
    FailsOnly l.Refusal (liftM x : Except Error α) :=
  h.lift fun _ => .noRoom

end Paradigm
