import Phrasebook.Proofs.Po.Steps

/-!
A line stores one message at most, the one that the draft tells which it closes. So the messages
only grow while a file is read.
-/

namespace Phrasebook.Po.Reader

variable {reader next : Reader} {number : Nat}

inductive Stores (reader next : Reader) : Prop
  | nothing : next.messages = reader.messages → Stores reader next
  | message {key wording} :
      reader.draft.wordings ≠ [] → reader.draft.Tells key wording →
      reader.messages.contains key = false →
      next.messages = reader.messages.insert key wording → Stores reader next

theorem Stores.of_messages {other : Reader} (stores : Stores reader other)
    (same : next.messages = other.messages) : Stores reader next := by
  cases stores with
  | nothing kept => exact .nothing (same.trans kept)
  | message worded tells fresh stored => exact .message worded tells fresh (same.trans stored)

theorem stores_of_flush (flushed : reader.flush = .ok next) : Stores reader next := by
  by_cases begun : reader.draft.last = none
  · cases flushed.symm.trans (flush_of_unbegun begun)
    exact .nothing rfl
  · obtain ⟨worded, closes⟩ := closes_of_flush begun flushed
    cases closes with
    | header => exact .nothing rfl
    | leftOut => exact .nothing rfl
    | stored tells fresh => exact .message worded tells fresh rfl

theorem stores_of_flushIfWorded (flushed : reader.flushIfWorded = .ok next) :
    Stores reader next := by
  unfold flushIfWorded at flushed
  split at flushed
  · exact stores_of_flush flushed
  · cases flushed
    exact .nothing rfl

theorem messages_beginAt (reader : Reader) (number : Nat) :
    (reader.beginAt number).messages = reader.messages := by
  unfold beginAt
  split <;> rfl

/-- A line changes the messages only by closing the draft. -/
theorem stores_of_take {line : Line} (taken : reader.take number line = .ok next) :
    Stores reader next := by
  cases line with
  | blank => exact stores_of_flushIfWorded taken
  | comment fuzzy =>
    obtain ⟨closed, flushed, same⟩ := bind_eq_ok_iff.1 taken
    cases same
    exact (stores_of_flushIfWorded flushed).of_messages rfl
  | continuation text =>
    simp only [take, readContinuation] at taken
    split at taken
    · cases taken
    · cases taken
      exact .nothing rfl
  | keyword field text =>
    obtain ⟨opened, step, _, rfl⟩ := readKeyword_eq_ok_iff.1 taken
    have opens : Stores reader opened := by
      split at step
      · exact stores_of_flushIfWorded step
      · cases step
        exact .nothing rfl
    exact opens.of_messages (messages_beginAt opened number)

theorem readLines_induction (keeps : Reader → Prop)
    (step : ∀ {reader next : Reader} {number : Nat} {line : Line},
      reader.take number line = .ok next → keeps reader → keeps next)
    {lines : List (List Char)} (read : reader.readLines number lines = .ok next)
    (start : keeps reader) : keeps next := by
  induction lines generalizing reader number with
  | nil =>
    cases read
    exact start
  | cons line rest ih =>
    obtain ⟨middle, readLine, later⟩ := readLines_cons_eq_ok_iff.1 read
    obtain ⟨parsed, _, taken⟩ := readLine_eq_ok_iff.1 readLine
    exact ih later (step taken start)

end Phrasebook.Po.Reader
