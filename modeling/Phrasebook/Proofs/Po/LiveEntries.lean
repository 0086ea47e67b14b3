import Mathlib.Data.List.Perm.Basic
import Mathlib.Data.List.TakeWhile
import Phrasebook.Proofs.Po.Gathering

/-!
The catalog of a file holds the messages of its live entries, each once, and nothing else.
-/

namespace Phrasebook.Po

open Reader

theorem eq_false_of_dropWhile {p : Line → Bool} {lines rest : List Line} {line : Line}
    (found : lines.dropWhile p = line :: rest) : p line = false := by
  have stops := List.head?_dropWhile_not p lines
  rwa [found] at stops

theorem passages_of_fillers {lines : List Line} (none : lines.dropWhile Line.isFiller = []) :
    passages lines = [] := by
  rw [passages]
  split
  · rfl
  · rename_i found
    cases none.symm.trans found

theorem passages_of_found {lines rest : List Line} {first : Line}
    (found : lines.dropWhile Line.isFiller = first :: rest) :
    passages lines =
      ⟨lines.takeWhile Line.isFiller, (cutEntry (first :: rest)).1⟩ ::
        passages (cutEntry (first :: rest)).2 := by
  rw [passages]
  split
  · rename_i none
    cases none.symm.trans found
  · rename_i same
    cases same.symm.trans found
    rfl

theorem withinEntry_cutEntry (lines : List Line) : WithinEntry (cutEntry lines).1 := by
  intro done line leading ends
  unfold cutEntry at leading
  split at leading
  · rename_i unworded
    intro other member
    simpa using List.dropWhile_eq_nil_iff.1 unworded other
      (leading.subset (List.mem_append_left [line] member))
  · rename_i wording rest found
    have worded := eq_false_of_dropWhile found
    -- The line that ends the entry stands in front of the first wording, for behind it none does.
    have absent : line ∉ wording :: rest.takeWhile (!·.endsEntry) := by
      rintro (_ | ⟨_, later⟩)
      · rw [Line.endsEntry_of_isWording (by simpa using worded)] at ends
        cases ends
      · simpa [ends] using List.mem_takeWhile_imp later
    have earlier : done <+: lines.takeWhile (!·.isWording) := by
      obtain ⟨behind, whole⟩ := leading
      rcases List.append_eq_append_iff.1 whole with ⟨gap, same, _⟩ | ⟨gap, same, split⟩
      · exact ⟨line :: gap, by simp [same]⟩
      · rcases List.eq_nil_or_concat gap with rfl | ⟨others, last, rfl⟩
        · exact ⟨[line], by simpa using same⟩
        · rw [List.concat_eq_append, ← List.append_assoc] at same
          obtain ⟨_, last⟩ := List.append_inj' same rfl
          cases last
          exact absurd (split ▸ by simp) absent
    intro other member
    simpa using List.mem_takeWhile_imp (earlier.subset member)

/-- What is behind the cut begins with a line that ends the entry, which has a wording. -/
theorem endsEntry_of_cutEntry {lines rest : List Line} {line : Line}
    (behind : (cutEntry lines).2 = line :: rest) :
    line.endsEntry = true ∧ ∃ other ∈ (cutEntry lines).1, other.isWording = true := by
  unfold cutEntry at behind ⊢
  split at behind
  · cases behind
  · rename_i wording others found
    have ends := eq_false_of_dropWhile behind
    have worded := eq_false_of_dropWhile found
    exact ⟨by simpa using ends, wording, by simp, by simpa using worded⟩

namespace Passage

variable {passage : Passage} {draft : Draft}

theorem wordings_of_holds (holds : draft.Holds (fieldsOf passage.lines)) :
    passage.wordings = draft.wordings := by
  have sorted : (draft.wordings.mapIdx Prod.mk).Pairwise (·.1 ≤ ·.1) := by
    rw [List.pairwise_iff_getElem]
    intro first second _ _ before
    simpa using before.le
  rw [Passage.wordings, holds.wordings, sorted.insertionSort_eq]
  exact List.ext_getElem (by simp) (by simp)

theorem id_of_holds (holds : draft.Holds (fieldsOf passage.lines)) :
    passage.id = draft.id.getD "" := by
  rw [Passage.id, value?, ← holds.values]
  rfl

theorem isLive_iff_of_holds (holds : draft.Holds (fieldsOf passage.lines))
    (flag : draft.fuzzy = decide (.comment true ∈ passage.before)) :
    passage.IsLive ↔ ∃ id, draft.Kept id := by
  have id := id_of_holds holds
  have context : passage.value? .context = draft.context := (holds.values .context).symm
  have wordings := wordings_of_holds holds
  constructor
  · rintro ⟨named, plain, certain, complete⟩
    cases known : draft.id with
    | none =>
      rw [known] at id
      exact absurd id named
    | some text =>
      rw [known, Option.getD_some] at id
      exact ⟨text, known, id ▸ named, by simpa [flag] using certain, context ▸ plain,
        wordings ▸ complete⟩
  · rintro ⟨text, known, named, certain, plain, complete⟩
    rw [known, Option.getD_some] at id
    exact ⟨id ▸ named, context ▸ plain, by simpa [flag] using certain, wordings ▸ complete⟩

theorem message_of_tells (holds : draft.Holds (fieldsOf passage.lines)) {key : MessageKey}
    {wording : Wording} (tells : draft.Tells key wording) :
    passage.message? = some (key, wording) := by
  have id := id_of_holds holds
  have plural : passage.value? .idPlural = draft.idPlural := (holds.values .idPlural).symm
  have wordings := wordings_of_holds holds
  cases tells with
  | single kept none texts =>
    rw [kept.known] at id
    rw [none] at plural
    rw [texts] at wordings
    simp [message?, wording?, key, plural, wordings, id]
  | forms kept some =>
    rw [kept.known] at id
    rw [some] at plural
    simp [message?, wording?, key, plural, wordings, id]

end Passage

namespace Reader

theorem messages_of_closes {reader next : Reader} (passage : Passage)
    (holds : reader.draft.Holds (Passage.fieldsOf passage.lines))
    (flag : reader.draft.fuzzy = decide (.comment true ∈ passage.before))
    (closes : Closes reader next) :
    (next.messages.entries.map some).Perm
      (([passage].filter (·.IsLive)).map Passage.message? ++ reader.messages.entries.map some) := by
  have live := Passage.isLive_iff_of_holds holds flag
  cases closes with
  | header header =>
    have dead : ¬passage.IsLive := by
      intro alive
      obtain ⟨id, kept⟩ := live.1 alive
      exact kept.named (Option.some.inj (kept.known.symm.trans header.1))
    simp [dead]
  | leftOut leftOut =>
    have dead : ¬passage.IsLive := by
      intro alive
      obtain ⟨id, kept⟩ := live.1 alive
      obtain ⟨_, _, fuzzy | context | wording⟩ := leftOut
      · exact Bool.false_ne_true (kept.certain.symm.trans fuzzy)
      · exact context kept.plain
      · exact kept.complete wording
    simp [dead]
  | @stored key wording tells fresh =>
    have alive : passage.IsLive := by
      cases tells with
      | single kept => exact live.2 ⟨_, kept⟩
      | forms kept => exact live.2 ⟨_, kept⟩
    simpa [alive, Passage.message_of_tells holds tells] using
      (Dictionary.perm_insert fresh wording).map some

/-- Behind an entry the reader goes on as if it had been closed there. -/
theorem closed_of_behind {reader gathered last final : Reader} {lines : List Line}
    (gathers : Gathers reader (cutEntry lines).1 gathered)
    (behind : Takes gathered (cutEntry lines).2 last) (flushed : last.flush = .ok final) :
    ∃ settled, gathered.flush = .ok settled ∧
      ∃ last, Takes settled (cutEntry lines).2 last ∧ last.flush = .ok final := by
  cases same : (cutEntry lines).2 with
  | nil =>
    rw [same] at behind
    cases behind
    exact ⟨final, flushed, final, .nil, flush_of_closed (draft_of_flush flushed)⟩
  | cons line rest =>
    rw [same] at behind
    obtain ⟨ends, wording, member, worded⟩ := endsEntry_of_cutEntry same
    have nonempty : gathered.draft.wordings ≠ [] := by
      intro none
      rw [gathers.wordings_eq_nil_iff] at none
      cases worded.symm.trans (none wording member)
    cases behind with
    | cons number taken later =>
      obtain ⟨settled, closing, taken⟩ := flush_of_endsEntry nonempty ends taken
      exact ⟨settled, closing, last, .cons number taken later, flushed⟩

structure Passes (reader : Reader) (passage : Passage) (gathered settled : Reader) : Prop where
  gathers : Gathers
    { reader with fuzzyNext := reader.fuzzyNext || decide (.comment true ∈ passage.before) }
    passage.lines gathered
  closes : Closes gathered settled

inductive PassesAll : Reader → List Passage → Reader → Prop
  | nil {reader : Reader} (fuzzyNext : Bool) : PassesAll reader [] { reader with fuzzyNext }
  | cons {reader gathered settled final : Reader} {passage : Passage} {rest : List Passage} :
      Passes reader passage gathered settled → PassesAll settled rest final →
      PassesAll reader (passage :: rest) final

theorem Passes.fuzzyNext_eq {reader gathered settled : Reader} {passage : Passage}
    (passes : Passes reader passage gathered settled) :
    settled.fuzzyNext = decide (.comment true ∈ passage.lines) := by
  rw [← passes.gathers.flag]
  cases passes.closes <;> rfl

theorem passes_of_takes {lines rest : List Line} {first : Line} {reader last final : Reader}
    (closed : reader.draft = .empty) (found : lines.dropWhile Line.isFiller = first :: rest)
    (takes : Takes reader lines last) (flushed : last.flush = .ok final) :
    ∃ gathered settled last,
      Passes reader ⟨lines.takeWhile Line.isFiller, (cutEntry (first :: rest)).1⟩ gathered settled ∧
      settled.draft = .empty ∧ Takes settled (cutEntry (first :: rest)).2 last ∧
      last.flush = .ok final := by
  have whole : lines.takeWhile Line.isFiller ++
      ((cutEntry (first :: rest)).1 ++ (cutEntry (first :: rest)).2) = lines := by
    rw [cutEntry_append, ← found]
    exact List.takeWhile_append_dropWhile
  rw [← whole] at takes
  obtain ⟨opened, before, takes⟩ := takes_append takes
  obtain ⟨gathered, entry, behind⟩ := takes_append takes
  have step := takes_fillers closed (fun line member => List.mem_takeWhile_imp member) before
  have gathers : Gathers opened (cutEntry (first :: rest)).1 gathered := by
    apply gathers_of_takes (step ▸ closed) (cutEntry_fst_ne_nil first rest) _
      (withinEntry_cutEntry (first :: rest)) entry
    rw [head_cutEntry]
    intro line same
    cases same
    exact eq_false_of_dropWhile found
  obtain ⟨settled, closing, last, later, flushed⟩ := closed_of_behind gathers behind flushed
  have closes := (closes_of_flush gathers.last_ne_none closing).2
  rw [step] at gathers
  exact ⟨gathered, settled, last, ⟨gathers, closes⟩, draft_of_flush closing, later, flushed⟩

theorem passesAll_of_takes {lines : List Line} {reader last final : Reader}
    (closed : reader.draft = .empty) (takes : Takes reader lines last)
    (flushed : last.flush = .ok final) : PassesAll reader (passages lines) final := by
  -- Between two entries the reader is closed, which carries the induction.
  induction lines using passages.induct generalizing reader last with
  | case1 lines none =>
    have same := takes_fillers closed (List.dropWhile_eq_nil_iff.1 none) takes
    have done : last.flush = .ok last := flush_of_closed (same ▸ closed)
    cases flushed.symm.trans done
    rw [passages_of_fillers none, same]
    exact .nil _
  | case2 lines first rest found ih =>
    obtain ⟨gathered, settled, last, passes, ends, later, flushed⟩ :=
      passes_of_takes closed found takes flushed
    rw [passages_of_found found]
    exact .cons passes (ih ends later flushed)

/-- Of the entries that the reader comes through the messages of the live ones are read, and no
others. -/
theorem messages_of_passesAll {entries : List Passage} {reader final : Reader}
    (passes : PassesAll reader entries final) (calm : reader.fuzzyNext = false)
    (plain : ∀ passage ∈ entries, .comment true ∉ passage.lines) :
    (final.messages.entries.map some).Perm
      ((entries.filter (·.IsLive)).map Passage.message? ++
        reader.messages.entries.map some) := by
  induction passes with
  | nil => exact .refl _
  | @cons reader gathered settled final passage rest first _ ih =>
    rw [List.forall_mem_cons] at plain
    have still : settled.fuzzyNext = false :=
      first.fuzzyNext_eq.trans (decide_eq_false plain.1)
    have own := messages_of_closes passage first.gathers.holds
      (by rw [first.gathers.fuzzy, calm, Bool.false_or]) first.closes
    rw [first.gathers.messages] at own
    have joined := (ih still plain.2).trans (own.append_left _)
    rw [← List.append_assoc] at joined
    rw [← List.singleton_append, List.filter_append, List.map_append]
    exact joined.trans (List.perm_append_comm.append_right _)

end Reader

theorem passesAll_of_read {text : String} {catalog : Catalog}
    (accepted : read text = .ok catalog) :
    ∃ final, Reader.PassesAll .start (passages (linesOf text)) final ∧ final.catalog = catalog := by
  obtain ⟨final, taken, same⟩ := read_eq_ok_iff.1 accepted
  obtain ⟨last, readAll, flushed⟩ := Reader.ofChars_eq_ok_iff.1 taken
  exact ⟨final, Reader.passesAll_of_takes rfl (Reader.takes_of_readLines readAll) flushed, same⟩

theorem messages_of_read {text : String} (between : FlagsBetween text) {catalog : Catalog}
    (accepted : read text = .ok catalog) :
    (catalog.messages.entries.map some).Perm ((liveEntries text).map Passage.message?) := by
  obtain ⟨final, passes, rfl⟩ := passesAll_of_read accepted
  have told := Reader.messages_of_passesAll passes rfl between
  simpa [Reader.start, Dictionary.empty, Reader.catalog, liveEntries] using told

theorem Passage.map_key_of_messages {entries : List Passage}
    {messages : List (MessageKey × Wording)}
    (told : (messages.map some).Perm (entries.map message?)) :
    (messages.map Prod.fst).Perm (entries.map key) := by
  have own : entries.map (Option.map Prod.fst ∘ message?) = entries.map (some ∘ key) := by
    apply List.map_congr_left
    intro passage member
    obtain ⟨message, _, found⟩ := List.mem_map.1 (told.mem_iff.2 (List.mem_map_of_mem member))
    cases wording : passage.wording? with
    | none => simp [message?, wording] at found
    | some text => simp [message?, wording]
  have keys := told.map (Option.map Prod.fst)
  rw [List.map_map, List.map_map, own] at keys
  apply (List.map_perm_map_iff (Option.some_injective MessageKey)).1
  simpa using keys

/-- If flags stand between entries only, the catalog that is read holds the messages of the live
entries, each once, and no others. If two live entries have one key, no catalog is read. -/
theorem read_exactly_live {text : String} (between : FlagsBetween text) :
    (∀ catalog, read text = .ok catalog →
      (catalog.messages.entries.map some).Perm ((liveEntries text).map Passage.message?)) ∧
    (¬((liveEntries text).map Passage.key).Nodup → ∀ catalog, read text ≠ .ok catalog) := by
  refine ⟨fun catalog accepted => messages_of_read between accepted, ?_⟩
  intro repeated catalog accepted
  apply repeated
  have keys := Passage.map_key_of_messages (messages_of_read between accepted)
  exact keys.nodup_iff.1 (Dictionary.nodup_keys catalog.messages)

theorem read_exactly_live_files :
    let text := "#, fuzzy\nmsgid \"a\"\nmsgstr \"x\"\nmsgid \"file\"\nmsgstr \"fich\"\n\"ier\"\n"
    FlagsBetween text ∧ ∃ catalog, read text = .ok catalog ∧
      (catalog.messages.entries.map some).Perm [some (.singular "file", .single "fichier")] := by
  intro text
  have between : FlagsBetween text := by decide +kernel
  have live : (liveEntries text).map Passage.message? =
      [some (.singular "file", .single "fichier")] := by decide +kernel
  have accepted : (read text).isOk = true := by decide +kernel
  refine ⟨between, ?_⟩
  cases result : read text with
  | error refusal =>
    rw [result] at accepted
    cases accepted
  | ok catalog => exact ⟨catalog, rfl, live ▸ (read_exactly_live between).1 catalog result⟩

end Phrasebook.Po
