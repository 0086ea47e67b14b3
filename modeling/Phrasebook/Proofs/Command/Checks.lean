import Phrasebook.Command.Run
import Phrasebook.Proofs.Command.Table
import Phrasebook.Proofs.Except
import Phrasebook.Proofs.Json.Reading

/-!
What a check prints: a record in JSON for each file, in order, or a table with a row for each file
that can be used, and a report of every other one.
-/

namespace Phrasebook.Command

def Usable (source : Source) (path : String) : Prop :=
  ∃ prepared, loadPrepared source path = .ok prepared

variable {source : Source} {path : String}

def summaryOf (path : String) (prepared : Catalog × Resolver) : Summary where
  path := path
  messages := prepared.2.catalog.size
  plurals := prepared.2.catalog.pluralCount
  forms := (Plural.Declaration.ofMetadata? prepared.1.metadata).bind (·.forms)
  rule := prepared.2.rule

theorem summarize_eq (source : Source) (path : String) :
    summarize source path = (loadPrepared source path).map (summaryOf path) := by
  unfold summarize
  cases loadPrepared source path <;> rfl

theorem summarize_eq_ok_iff {summary : Summary} : summarize source path = .ok summary ↔
    ∃ prepared, loadPrepared source path = .ok prepared ∧ summaryOf path prepared = summary := by
  rw [summarize_eq, map_eq_ok_iff]

theorem usable_iff_summarize :
    Usable source path ↔ ∃ summary, summarize source path = .ok summary := by
  rw [summarize_eq, Usable, exists_map_eq_ok_iff]

def Prints (text : String) (value : Json) : Prop :=
  ∃ written, value.WrittenAs written ∧ text.toList = written ++ ['\n']

theorem prints_jsonText (value : Json) : Prints (jsonText value) value :=
  ⟨_, value.writtenAs_pretty 2, String.toList_ofList⟩

theorem Prints.reads {text : String} {value : Json} (prints : Prints text value)
    (exact : value.Exact) (deep : value.nesting ≤ Json.maxDepth) :
    Json.readWhole (Json.readValue Json.maxDepth) text.toList = .ok value := by
  obtain ⟨written, writes, same⟩ := prints
  rw [same, writes.readWhole exact deep]

/-- The messages of the file can be counted in a word. -/
def Countable (source : Source) (path : String) : Prop :=
  ∀ catalog resolver, loadPrepared source path = .ok (catalog, resolver) →
    resolver.catalog.size < 2 ^ 64

theorem exact_reportJson (countable : Countable source path) :
    (reportJson path (summarize source path)).Exact := by
  cases summarized : summarize source path with
  | error e => exact ⟨trivial, trivial, trivial, trivial⟩
  | ok summary =>
    obtain ⟨⟨catalog, resolver⟩, loaded, rfl⟩ := summarize_eq_ok_iff.1 summarized
    have messages : resolver.catalog.size < 2 ^ 64 := countable catalog resolver loaded
    have fewer : resolver.catalog.pluralCount ≤ resolver.catalog.size := by
      rw [Dictionary.size, ← List.length_map (f := Prod.snd)]
      exact List.countP_le_length
    have plurals : resolver.catalog.pluralCount < 2 ^ 64 := Nat.lt_of_le_of_lt fewer messages
    have exact : ∀ count : Nat, count < 2 ^ 64 → (Json.integer count).Exact := by
      intro count small
      exact ⟨by omega, by omega⟩
    exact ⟨trivial, trivial, exact _ messages, exact _ plurals, trivial⟩

def Tabulates (rows : List Row) (text : List Char) : Prop :=
  if rows = [] then text = []
  else ∃ table, ShowsTable ["Catalog", "Messages", "Plural", "Forms", "Rule"] rows table ∧
    text = table ++ ['\n']

def closing (good bad : Nat) : String :=
  if bad = 0 then "\x1b[32m" ++ (toString good ++ " catalogs OK") ++ "\x1b[39m"
  else "\x1b[31m" ++ (toString bad ++ " of " ++ toString (good + bad) ++ " catalogs failed") ++
    "\x1b[39m"

/-- All this is told, and nothing else: the rows in a table, how many of the files were refused,
and their reports. -/
structure Tells (tellings : List (Row ⊕ String)) (outcome : Outcome) : Prop where
  output : ∃ table, Tabulates (tellings.filterMap Sum.getLeft?) table ∧
    outcome.output.toList = table ++ (closing (tellings.filterMap Sum.getLeft?).length
      (tellings.filterMap Sum.getRight?).length).toList ++ ['\n']
  reports : outcome.reports = tellings.filterMap Sum.getRight?

def telling (source : Source) (path : String) : Row ⊕ String :=
  match summarize source path with
  | .ok summary => .inl (summaryRow summary)
  | .error e => .inr e.message

theorem verdict_eq (good bad : Nat) : verdict (good + bad) good = closing good bad := by
  unfold verdict closing
  by_cases none : bad = 0
  · subst none
    rw [Nat.add_zero, if_pos rfl, if_pos rfl]
    rfl
  · have some : good ≠ good + bad := by omega
    rw [if_neg none, if_neg some, Nat.add_sub_cancel_left]
    rfl

/-- Every file is either in the table or reported. -/
theorem length_lefts_add_length_rights {α β : Type} (tellings : List (α ⊕ β)) :
    (tellings.filterMap Sum.getLeft?).length + (tellings.filterMap Sum.getRight?).length =
      tellings.length := by
  induction tellings with
  | nil => rfl
  | cons telling tellings ih =>
    cases telling <;> simp [List.filterMap_cons] <;> omega

/-- Every summary has a cell in each column, so the rows make a table with the head. -/
theorem tabulates_summaries (summaries : List Summary) :
    Tabulates (summaries.map summaryRow) (if summaries.isEmpty then ""
      else tableText summaryHead (summaries.map summaryRow)).toList := by
  unfold Tabulates
  cases summaries with
  | nil => rfl
  | cons summary summaries =>
    rw [if_neg (by simp)]
    have uniform : ∀ row ∈ (summary :: summaries).map summaryRow,
        row.length = summaryHead.length := List.forall_mem_map.2 fun _ _ => rfl
    exact ⟨_, showsTable_drawTable uniform, String.toList_ofList⟩

section Checks

variable (source : Source) (files : List String)

theorem goodOnes_eq : goodOnes (files.map fun path => (path, summarize source path)) =
    files.filterMap fun path => (summarize source path).toOption := by
  rw [goodOnes, List.filterMap_map]
  rfl

theorem rows_eq : (goodOnes (files.map fun path => (path, summarize source path))).map summaryRow =
    (files.map (telling source)).filterMap Sum.getLeft? := by
  rw [goodOnes_eq, List.map_filterMap, List.filterMap_map]
  congr 1
  funext path
  simp only [Function.comp_apply, telling]
  cases summarize source path <;> rfl

theorem failures_eq : failures (files.map fun path => (path, summarize source path)) =
    (files.map (telling source)).filterMap Sum.getRight? := by
  rw [failures, List.filterMap_map, List.filterMap_map]
  congr 1
  funext path
  simp only [Function.comp_apply, telling]
  cases summarize source path <;> rfl

theorem length_goodOnes_iff :
    (goodOnes (files.map fun path => (path, summarize source path))).length = files.length ↔
      ∀ path ∈ files, Usable source path := by
  rw [goodOnes_eq, List.filterMap_length_eq_length]
  refine forall₂_congr fun path _ => ?_
  rw [usable_iff_summarize]
  cases summarize source path <;> simp [Except.toOption]

theorem runCheck_code_iff (json : Bool) :
    ((runCheck source files json).code = 0 ↔ ∀ path ∈ files, Usable source path) ∧
      ((runCheck source files json).code = 65 ↔ ∃ path ∈ files, ¬Usable source path) := by
  have code : (runCheck source files json).code =
      if (goodOnes (files.map fun path => (path, summarize source path))).length = files.length
      then success else badData := by
    unfold runCheck
    cases json <;> rfl
  rw [code]
  by_cases good : (goodOnes (files.map fun path => (path, summarize source path))).length =
      files.length
  · have usable := (length_goodOnes_iff source files).1 good
    rw [if_pos good]
    refine ⟨iff_of_true rfl usable, iff_of_false (by decide) ?_⟩
    rintro ⟨path, member, unusable⟩
    exact unusable (usable path member)
  · have unusable := mt (length_goodOnes_iff source files).2 good
    rw [if_neg good]
    exact ⟨iff_of_false (by decide) unusable, iff_of_true rfl (by simpa using unusable)⟩

theorem prints_runCheck : Prints (runCheck source files true).output
    (.array (files.map fun path => reportJson path (summarize source path))) := by
  have output : (runCheck source files true).output =
      jsonText (.array (files.map fun path => reportJson path (summarize source path))) := by
    simp only [runCheck, if_true, List.map_map]
    rfl
  rw [output]
  exact prints_jsonText _

theorem reads_runCheck (countable : ∀ path ∈ files, Countable source path) :
    Json.readWhole (Json.readValue Json.maxDepth) (runCheck source files true).output.toList =
      .ok (.array (files.map fun path => reportJson path (summarize source path))) := by
  refine (prints_runCheck source files).reads ?_ ?_
  · exact Json.exactItems_iff.2 (List.forall_mem_map.2 fun path member =>
      exact_reportJson (countable path member))
  · have flat : ∀ path ∈ files, (reportJson path (summarize source path)).nesting ≤ 126 := by
      intro path _
      cases summarize source path <;> exact Nat.le_of_ble_eq_true rfl
    exact Nat.succ_le_succ (Json.nestingOfItems_le_iff.2 (List.forall_mem_map.2 flat))

theorem tells_runCheck : Tells (files.map (telling source)) (runCheck source files false) where
  output := by
    have count := length_lefts_add_length_rights (files.map (telling source))
    rw [← rows_eq, List.length_map, List.length_map] at count
    rw [← rows_eq, List.length_map, ← verdict_eq, count]
    refine ⟨_, tabulates_summaries _, ?_⟩
    rw [runCheck, if_neg Bool.false_ne_true, String.toList_append, String.toList_append]
    rfl
  reports := by
    rw [← failures_eq]
    rfl

theorem runCheck_file (json : Bool) : (runCheck source files json).file = none := by
  unfold runCheck
  cases json <;> rfl

end Checks

end Phrasebook.Command
