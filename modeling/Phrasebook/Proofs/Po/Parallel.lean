import Phrasebook.Proofs.Po.Storing

/-!
Two readers that go through the same lines. If the parts of a step keep a relation between them, all
lines do: where the first reader comes through, the second follows it to the end, unless it stops for
a message of the first.
-/

namespace Phrasebook.Po.Reader

/-- What the second reader comes to when the first comes to `reader`: it is still related to it, or
it has stopped with an error that the messages of the first account for. -/
def Follows (related : Reader → Reader → Prop) (stops : RawCatalog → ReadError → Prop)
    (reader : Reader) : Except ReadError Reader → Prop
  | .ok other => related reader other
  | .error e => stops reader.messages e

theorem follows_of_ok {related : Reader → Reader → Prop} {stops : RawCatalog → ReadError → Prop}
    {reader : Reader} {result : Except ReadError Reader}
    (comes : ∃ other, result = .ok other ∧ related reader other) :
    Follows related stops reader result := by
  obtain ⟨other, rfl, follows⟩ := comes
  exact follows

theorem ok_of_follows {related : Reader → Reader → Prop} {reader : Reader}
    {result : Except ReadError Reader} (follows : Follows related (fun _ _ => False) reader result) :
    ∃ other, result = .ok other ∧ related reader other := by
  cases result with
  | error e => exact follows.elim
  | ok other => exact ⟨other, rfl, follows⟩

/-- The parts of a step keep the relation. Related drafts differ in their line and their flag only,
and an error is accounted for by more messages as well. -/
structure Parallel (related : Reader → Reader → Prop) (stops : RawCatalog → ReadError → Prop) :
    Prop where
  draft {reader other : Reader} : related reader other →
    ∃ line fuzzy, other.draft = { reader.draft with line, fuzzy }
  flush {reader other next : Reader} : related reader other → reader.flush = .ok next →
    Follows related stops next other.flush
  flag {reader other : Reader} (fuzzy : Bool) : related reader other →
    related { reader with fuzzyNext := reader.fuzzyNext || fuzzy }
      { other with fuzzyNext := other.fuzzyNext || fuzzy }
  beginAt {reader other : Reader} (number place : Nat) : related reader other →
    related (reader.beginAt number) (other.beginAt place)
  put {reader other : Reader} (field : Field) (text : String) : related reader other →
    related { reader with draft := reader.draft.put text field }
      { other with draft := other.draft.put text field }
  extend {reader other : Reader} (field : Field) (text : String) : related reader other →
    related { reader with draft := reader.draft.extend text field }
      { other with draft := other.draft.extend text field }
  stands {messages : RawCatalog} {e : ReadError} (key : MessageKey) (wording : Wording) :
    stops messages e → messages.contains key = false → stops (messages.insert key wording) e

namespace Parallel

variable {related : Reader → Reader → Prop} {stops : RawCatalog → ReadError → Prop}
  {reader other next middle : Reader}

theorem stands_of_stores (parallel : Parallel related stops) (stores : Stores reader next)
    {e : ReadError} (stopped : stops reader.messages e) : stops next.messages e := by
  cases stores with
  | nothing same => rwa [same]
  | message _ _ fresh same =>
    rw [same]
    exact parallel.stands _ _ stopped fresh

theorem flushIfWorded (parallel : Parallel related stops) (follows : related reader other)
    (flushed : reader.flushIfWorded = .ok next) :
    Follows related stops next other.flushIfWorded := by
  obtain ⟨line, fuzzy, same⟩ := parallel.draft follows
  have worded : other.draft.hasWording = reader.draft.hasWording := by rw [same]; rfl
  unfold Reader.flushIfWorded at flushed ⊢
  rw [worded]
  split at flushed
  · rename_i has
    rw [if_pos has]
    exact parallel.flush follows flushed
  · rename_i hasNot
    cases flushed
    rw [if_neg hasNot]
    exact follows

theorem take (parallel : Parallel related stops) (follows : related reader other) {number : Nat}
    (place : Nat) {line : Line} (taken : reader.take number line = .ok next) :
    Follows related stops next (other.take place line) := by
  cases line with
  | blank => exact parallel.flushIfWorded follows taken
  | comment fuzzy =>
    obtain ⟨closed, flushed, same⟩ := bind_eq_ok_iff.1 taken
    have closes := parallel.flushIfWorded follows flushed
    cases same
    rw [Reader.take]
    cases result : other.flushIfWorded with
    | error e =>
      rw [result] at closes
      exact closes
    | ok after =>
      rw [result] at closes
      exact parallel.flag fuzzy closes
  | continuation text =>
    obtain ⟨line, fuzzy, same⟩ := parallel.draft follows
    have last_eq : other.draft.last = reader.draft.last := by rw [same]
    simp only [Reader.take, readContinuation] at taken ⊢
    rw [last_eq]
    cases last : reader.draft.last with
    | none => simp [last] at taken
    | some field =>
      simp only [last, Except.ok.injEq] at taken
      subst taken
      exact parallel.extend field (String.ofList text) follows
  | keyword field text =>
    obtain ⟨opened, step, admits, rfl⟩ := readKeyword_eq_ok_iff.1 taken
    have opens : Follows related stops opened
        (if startsEntry field then other.flushIfWorded else .ok other) := by
      by_cases starts : startsEntry field = true
      · rw [if_pos starts] at step ⊢
        exact parallel.flushIfWorded follows step
      · rw [if_neg starts] at step ⊢
        cases step
        exact follows
    rw [Reader.take]
    cases result : (if startsEntry field then other.flushIfWorded else .ok other :
        Except ReadError Reader) with
    | error e =>
      rw [result] at opens
      rw [readKeyword_of_error result]
      show stops (opened.beginAt number).messages e
      rw [messages_beginAt]
      exact opens
    | ok after =>
      rw [result] at opens
      have begun := parallel.beginAt number place opens
      obtain ⟨line, fuzzy, same⟩ := parallel.draft begun
      have admitted : (after.beginAt place).draft.Admits field := by
        rw [same]
        cases field <;> exact admits
      rw [readKeyword_eq_ok_iff.2 ⟨after, result, admitted, rfl⟩]
      exact parallel.put field (String.ofList text) begun

/-- The second reader follows through all lines. -/
theorem readLines (parallel : Parallel related stops) (follows : related reader other)
    {number : Nat} (place : Nat) {lines : List (List Char)}
    (read : reader.readLines number lines = .ok next) :
    Follows related stops next (other.readLines place lines) := by
  induction lines generalizing reader other number place with
  | nil =>
    cases read
    exact follows
  | cons line rest ih =>
    obtain ⟨middle, readLine, later⟩ := readLines_cons_eq_ok_iff.1 read
    obtain ⟨parsed, parse, taken⟩ := readLine_eq_ok_iff.1 readLine
    have step := parallel.take follows place taken
    rw [Reader.readLines, readLine_of_reads parse]
    cases result : other.take place parsed with
    | error e =>
      rw [result] at step
      exact readLines_induction (fun reader => stops reader.messages e)
        (fun taken => parallel.stands_of_stores (stores_of_take taken)) later step
    | ok after =>
      rw [result] at step
      exact ih step (place + 1) later

theorem readLines_flush (parallel : Parallel related stops) (follows : related reader other)
    {number : Nat} (place : Nat) {lines : List (List Char)}
    (read : reader.readLines number lines = .ok middle) (flushed : middle.flush = .ok next) :
    Follows related stops next (other.readLines place lines >>= Reader.flush) := by
  have through := parallel.readLines follows place read
  cases result : other.readLines place lines with
  | error e =>
    rw [result] at through
    exact parallel.stands_of_stores (stores_of_flush flushed) through
  | ok after =>
    rw [result] at through
    exact parallel.flush through flushed

end Parallel

end Phrasebook.Po.Reader
