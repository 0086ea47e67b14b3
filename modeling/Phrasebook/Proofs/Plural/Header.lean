import Phrasebook.Plural.Header
import Phrasebook.Proofs.Po.Readable
import Phrasebook.Proofs.Text.Place

/-!
The plural declaration of the metadata. It is read from the first line that begins with its key,
whatever stands around and in its values; and it is all one whether letters are small or capital.
-/

namespace Phrasebook.Plural.Declaration

open Po (IsGap Numeral)
open Po.Line (isBlank_of_gap isGap_nil isDigit_of_numeral numeral_ne_nil numeral_eq_some_iff)

/-- A line that declares a number of forms and an expression. Letters may be of either case. -/
inductive Declares : List Char → Nat → List Char → Prop
  | line {indent key afterKey counts beforeCount digits afterCount afterMark chooses expression
      ending count} :
      IsGap indent → lowercase key = "plural-forms:".toList → IsGap afterKey →
      lowercase counts = "nplurals=".toList → IsGap beforeCount → Numeral 10 digits count →
      IsGap afterCount → IsGap afterMark → lowercase chooses = "plural=".toList →
      ';' ∉ expression → Text.trim expression ≠ [] →
      (ending = [] ∨ ∃ gap, IsGap gap ∧ ending = ';' :: gap) →
      Declares (indent ++ (key ++ afterKey ++ counts ++ beforeCount ++ digits ++ afterCount ++
        [';'] ++ afterMark ++ chooses ++ (expression ++ ending))) count expression

section Case

theorem toNat_toLower (c : Char) :
    c.toLower.toNat = if 65 ≤ c.toNat ∧ c.toNat ≤ 90 then c.toNat + 32 else c.toNat := by
  by_cases capital : 65 ≤ c.toNat ∧ c.toNat ≤ 90
  · have lowered : c.toLower.val = c.val + 32 := congrArg Char.val (dif_pos capital)
    have bounded : c.val.toNat ≤ 90 := capital.2
    rw [if_pos capital]
    calc c.toLower.toNat
        = (c.val + 32).toNat := congrArg UInt32.toNat lowered
      _ = (c.val.toNat + 32) % 2 ^ 32 := UInt32.toNat_add c.val 32
      _ = c.toNat + 32 := Nat.mod_eq_of_lt (by omega)
  · have same : c.toLower = c := dif_neg capital
    rw [same, if_neg capital]

/-- A character that is no letter is the small form of itself and of nothing else. -/
theorem toLower_eq_iff {c mark : Char} (capital : ¬(65 ≤ mark.toNat ∧ mark.toNat ≤ 90))
    (small : ¬(97 ≤ mark.toNat ∧ mark.toNat ≤ 122)) : c.toLower = mark ↔ c = mark := by
  rw [← Char.toNat_inj, ← Char.toNat_inj, toNat_toLower]
  split <;> omega

theorem isBlank_toLower (c : Char) : Text.isBlank c.toLower = Text.isBlank c := by
  by_cases capital : 65 ≤ c.toNat ∧ c.toNat ≤ 90
  · have small := toNat_toLower c
    rw [if_pos capital] at small
    rw [Text.isBlank_of_printed (by omega) (by omega),
      Text.isBlank_of_printed (by omega) (by omega)]
  · have same := toNat_toLower c
    rw [if_neg capital, Char.toNat_inj] at same
    rw [same]

theorem lowercase_append (first second : List Char) :
    lowercase (first ++ second) = lowercase first ++ lowercase second :=
  List.map_append

theorem lowercase_eq_self {text : List Char} (same : ∀ c ∈ text, c.toLower = c) :
    lowercase text = text :=
  (List.map_congr_left same).trans (List.map_id' text)

theorem trim_lowercase (text : List Char) :
    Text.trim (lowercase text) = lowercase (Text.trim text) := by
  have same : Text.isBlank ∘ Char.toLower = Text.isBlank := funext isBlank_toLower
  simp only [Text.trim, Text.dropBlanks, Text.dropBlanksAtEnd, lowercase, List.dropWhile_map,
    ← List.map_reverse, same]

theorem pieces_lowercase (text : List Char) :
    Text.pieces (lowercase text) = (Text.pieces text).map lowercase := by
  induction text with
  | nil => rfl
  | cons c rest ih =>
    show Text.addToPieces c.toLower (Text.pieces (lowercase rest)) =
      (Text.addToPieces c (Text.pieces rest)).map lowercase
    have feed : c.toLower = '\n' ↔ c = '\n' := toLower_eq_iff (by decide) (by decide)
    rw [ih]
    simp only [Text.addToPieces, feed]
    split
    · rename_i broken
      rw [broken]
      rfl
    · cases Text.pieces rest <;> rfl

theorem withoutLineEnd_lowercase (piece : List Char) :
    Text.withoutLineEnd (lowercase piece) = lowercase (Text.withoutLineEnd piece) := by
  have feed : ∀ c : Char, c.toLower = '\n' ↔ c = '\n' := fun c =>
    toLower_eq_iff (by decide) (by decide)
  have returns : ∀ c : Char, c.toLower = '\r' ↔ c = '\r' := fun c =>
    toLower_eq_iff (by decide) (by decide)
  have turned : (lowercase piece).reverse = piece.reverse.map Char.toLower := List.map_reverse.symm
  unfold Text.withoutLineEnd
  rw [turned]
  rcases piece.reverse with _ | ⟨c, _ | ⟨d, body⟩⟩
  · rfl
  · by_cases broken : c = '\n'
    · subst broken
      rfl
    · have broken' := mt (feed c).1 broken
      simp [broken, broken']
  · by_cases broken : c = '\n'
    · subst broken
      by_cases ending : d = '\r'
      · subst ending
        simp [lowercase]
      · have ending' := mt (returns d).1 ending
        simp [lowercase, ending, ending']
    · have broken' := mt (feed c).1 broken
      simp [broken, broken']

theorem lines_lowercase (text : List Char) :
    Text.lines (lowercase text) = (Text.lines text).map lowercase := by
  rw [Text.lines, pieces_lowercase, Text.lines, List.map_map, List.map_map]
  exact List.map_congr_left fun piece _ => withoutLineEnd_lowercase piece

/-- What is found in the metadata depends on their small form only. -/
theorem line_eq (metadata : List Char) :
    line? metadata =
      ((Text.lines (lowercase metadata)).map Text.trim).find? "plural-forms:".toList.isPrefixOf := by
  have same : (fun line => lowercase (Text.trim line)) = Text.trim ∘ lowercase :=
    funext fun line => (trim_lowercase line).symm
  rw [line?, lines_lowercase, List.map_map, same]

end Case

section Search

variable (first : Char) (name : List Char)

theorem afterName_cons {c : Char} {rest : List Char}
    (other : (first :: name).isPrefixOf (c :: rest) = false) (previous : Option Char) :
    afterName? (first :: name) previous (c :: rest) = afterName? (first :: name) (some c) rest := by
  rw [afterName?, other, Bool.false_and, if_neg Bool.false_ne_true]

theorem afterName_append {skip : List Char} (absent : first ∉ skip) (previous : Option Char)
    (rest : List Char) :
    afterName? (first :: name) previous (skip ++ rest) =
      afterName? (first :: name) (skip.getLast?.or previous) rest := by
  induction skip generalizing previous with
  | nil => rfl
  | cons c skip ih =>
    rw [List.mem_cons, not_or] at absent
    have other : (first :: name).isPrefixOf (c :: (skip ++ rest)) = false := by
      simp [List.isPrefixOf, absent.1]
    rw [List.cons_append, afterName_cons _ _ other, ih absent.2, List.getLast?_cons]
    cases skip.getLast? <;> rfl

/-- A name is found where no word character stands in front of it. -/
theorem afterName_of_word {previous : Option Char} (apart : previous.any isWordChar = false)
    (rest : List Char) : afterName? (first :: name) previous (first :: name ++ rest) = some rest := by
  have here : (first :: name).isPrefixOf (first :: (name ++ rest)) = true :=
    List.isPrefixOf_iff_prefix.2 (List.prefix_append (first :: name) rest)
  rw [List.cons_append, afterName?, here, apart]
  simp

end Search

section Gaps

variable {gap : List Char}

theorem not_mem_gap (blank : IsGap gap) {c : Char} (space : c ≠ ' ') (tab : c ≠ '\t') : c ∉ gap :=
  fun member => (blank c member).elim space tab

theorem lowercase_gap (blank : IsGap gap) : lowercase gap = gap := by
  apply lowercase_eq_self
  intro c member
  rcases blank c member with rfl | rfl <;> decide

theorem apart_gap (blank : IsGap gap) {previous : Option Char}
    (apart : previous.any isWordChar = false) :
    (gap.getLast?.or previous).any isWordChar = false := by
  cases last : gap.getLast? with
  | none => exact apart
  | some c => rcases blank c (List.mem_of_getLast? last) with rfl | rfl <;> rfl

end Gaps

section Digits

variable {digits : List Char} {count : Nat}

theorem lowercase_numeral (denotes : Numeral 10 digits count) : lowercase digits = digits := by
  apply lowercase_eq_self
  intro c member
  have code := (Text.isDigit_iff c).1 (isDigit_of_numeral denotes c member)
  rw [← Char.toNat_inj, toNat_toLower, if_neg (by omega)]

theorem trim_numeral (denotes : Numeral 10 digits count) : Text.trim digits = digits := by
  apply Text.trim_visible
  intro c member
  have code := (Text.isDigit_iff c).1 (isDigit_of_numeral denotes c member)
  exact Text.isBlank_of_printed (by omega) (by omega)

theorem not_mem_numeral (denotes : Numeral 10 digits count) {c : Char}
    (other : Text.isDigit c = false) : c ∉ digits := by
  intro member
  rw [isDigit_of_numeral denotes c member] at other
  cases other

theorem unsigned_numeral (denotes : Numeral 10 digits count) (small : count < 2 ^ 64) :
    Text.unsigned? 10 (2 ^ 64) digits = some count := by
  have unsigned : ∀ rest, digits ≠ '+' :: rest := by
    rintro rest rfl
    exact not_mem_numeral denotes (by decide) List.mem_cons_self
  have value := (numeral_eq_some_iff (by decide)).2 denotes
  unfold Text.unsigned?
  split
  · exact absurd rfl (unsigned _)
  · simp only [value, Option.filter_some, decide_eq_true_eq, if_pos small]

end Digits

inductive Reduced : List Char → Nat → List Char → Prop
  | line {afterKey beforeCount digits afterCount afterMark value count} :
      IsGap afterKey → IsGap beforeCount → Numeral 10 digits count → IsGap afterCount →
      IsGap afterMark →
      Reduced ("plural-forms:".toList ++ (afterKey ++ ("nplurals=".toList ++
        (beforeCount ++ digits ++ afterCount ++ ';' :: (afterMark ++ ("plural=".toList ++ value))))))
        count (Text.trim (value.takeWhile (· ≠ ';')))

theorem afterName_counts {gap : List Char} (blank : IsGap gap) (rest : List Char) :
    afterName? "nplurals=".toList none
      ("plural-forms:".toList ++ (gap ++ ("nplurals=".toList ++ rest))) = some rest := by
  have name : "nplurals=".toList = 'n' :: "plurals=".toList := by decide +kernel
  have apart := apart_gap blank (show (some ':').any isWordChar = false by decide)
  rw [name, afterName_append _ _ (by decide),
    afterName_append _ _ (not_mem_gap blank (by decide) (by decide))]
  exact afterName_of_word _ _ apart rest

theorem afterName_chooses {afterKey middle gap : List Char} (blankKey : IsGap afterKey)
    (absent : 'p' ∉ middle) (blank : IsGap gap) (rest : List Char) :
    afterName? "plural=".toList none
      ("plural-forms:".toList ++ (afterKey ++ ("nplurals=".toList ++
        (middle ++ ';' :: (gap ++ ("plural=".toList ++ rest)))))) = some rest := by
  have name : "plural=".toList = 'p' :: "lural=".toList := by decide +kernel
  have key : "plural-forms:".toList = 'p' :: "lural-forms:".toList := by decide +kernel
  have counts : "nplurals=".toList = ['n'] ++ 'p' :: "lurals=".toList := by decide +kernel
  -- Two words begin like the name and go on in another way: the key and the other parameter.
  have pastKey : ∀ text,
      ('p' :: "lural=".toList).isPrefixOf ('p' :: ("lural-forms:".toList ++ text)) = false :=
    fun _ => rfl
  have pastCounts : ∀ text,
      ('p' :: "lural=".toList).isPrefixOf ('p' :: ("lurals=".toList ++ text)) = false :=
    fun _ => rfl
  have apart := apart_gap blank (show (some ';').any isWordChar = false by decide)
  have mark : middle ++ ';' :: (gap ++ ('p' :: "lural=".toList ++ rest)) =
      (middle ++ [';']) ++ (gap ++ ('p' :: "lural=".toList ++ rest)) := by simp
  rw [name, key, counts, List.cons_append, afterName_cons _ _ (pastKey _),
    afterName_append _ _ (by decide),
    afterName_append _ _ (not_mem_gap blankKey (by decide) (by decide)), List.append_assoc,
    afterName_append _ _ (by decide), List.cons_append, afterName_cons _ _ (pastCounts _),
    afterName_append _ _ (by decide), mark, afterName_append _ _ (by simp [absent]),
    afterName_append _ _ (not_mem_gap blank (by decide) (by decide)), List.getLast?_concat]
  exact afterName_of_word _ _ apart rest

theorem parameter_of_afterName {name : String} {line rest : List Char}
    (found : afterName? name.toList none line = some rest)
    (nonempty : Text.trim (rest.takeWhile (· ≠ ';')) ≠ []) :
    parameter? name line = some (Text.trim (rest.takeWhile (· ≠ ';'))) := by
  rw [parameter?, found, Option.map_some, Option.filter_some, if_pos (by simpa using nonempty)]

theorem takeWhile_value {value : List Char} (absent : ';' ∉ value) (rest : List Char) :
    (value ++ ';' :: rest).takeWhile (· ≠ ';') = value := by
  apply Text.takeWhile_append
  · intro c member
    exact decide_eq_true fun same => absent (same ▸ member)
  · rintro c ⟨⟩
    rfl

theorem parameters_of_reduced {small expression : List Char} {count : Nat}
    (reduced : Reduced small count expression) (fits : count < 2 ^ 64) (nonempty : expression ≠ []) :
    "plural-forms:".toList.isPrefixOf small = true ∧
      (parameter? "nplurals=" small).bind (Text.unsigned? 10 (2 ^ 64)) = some count ∧
      parameter? "plural=" small = some expression := by
  cases reduced with
  | @line afterKey beforeCount digits afterCount afterMark value _ gapKey gapBefore denotes gapAfter
      gapMark =>
    have absent : ∀ mark : Char, Text.isDigit mark = false → mark ≠ ' ' → mark ≠ '\t' →
        mark ∉ beforeCount ++ digits ++ afterCount := by
      intro mark other space tab
      simp [not_mem_gap gapBefore space tab, not_mem_numeral denotes other,
        not_mem_gap gapAfter space tab]
    have counted : Text.trim ((beforeCount ++ digits ++ afterCount ++ ';' :: (afterMark ++
        ("plural=".toList ++ value))).takeWhile (· ≠ ';')) = digits := by
      rw [takeWhile_value (absent ';' (by decide) (by decide) (by decide)),
        Text.trim_append_blank _ (isBlank_of_gap gapAfter), Text.trim_blank_append
        (isBlank_of_gap gapBefore), trim_numeral denotes]
    have written := numeral_ne_nil denotes
    refine ⟨List.isPrefixOf_iff_prefix.2 (List.prefix_append _ _), ?_, ?_⟩
    · rw [parameter_of_afterName (afterName_counts gapKey _) (by rwa [counted]), counted,
        Option.bind_some, unsigned_numeral denotes fits]
    · have free := absent 'p' (by decide) (by decide) (by decide)
      exact parameter_of_afterName (afterName_chooses gapKey free gapMark value) nonempty

theorem trim_value {expression ending : List Char} (absent : ';' ∉ expression)
    (ends : ending = [] ∨ ∃ gap, IsGap gap ∧ ending = ';' :: gap) :
    Text.trim ((Text.dropBlanksAtEnd (lowercase (expression ++ ending))).takeWhile (· ≠ ';')) =
      lowercase (Text.trim expression) := by
  have none : ';' ∉ lowercase expression := by
    intro member
    obtain ⟨c, there, small⟩ := List.mem_map.1 member
    exact absent ((toLower_eq_iff (by decide) (by decide)).1 small ▸ there)
  rcases ends with rfl | ⟨gap, blank, rfl⟩
  · have kept : (Text.dropBlanksAtEnd (lowercase expression)).takeWhile (· ≠ ';') =
        Text.dropBlanksAtEnd (lowercase expression) := by
      apply List.takeWhile_eq_self_iff.2
      intro c member
      exact decide_eq_true fun same =>
        none (same ▸ (Text.dropBlanksAtEnd_prefix (lowercase expression)).subset member)
    rw [List.append_nil, kept, Text.trim_dropBlanksAtEnd, trim_lowercase]
  · have mark : lowercase (expression ++ ';' :: gap) =
        lowercase expression ++ ';' :: lowercase gap := lowercase_append expression (';' :: gap)
    rw [mark, Text.dropBlanksAtEnd_append _ (show Text.isBlank ';' = false by decide),
      takeWhile_value none, trim_lowercase]

/-- A line that declares is reduced by trimming it and writing it in small letters. -/
theorem reduced_of_declares {line expression : List Char} {count : Nat}
    (declares : Declares line count expression) :
    Reduced (lowercase (Text.trim line)) count (lowercase (Text.trim expression)) := by
  cases declares with
  | @line indent key afterKey counts beforeCount digits afterCount afterMark chooses _ ending _
      gapIndent isKey gapKey isCounts gapBefore denotes gapAfter gapMark isChooses absent _ ends =>
    have small : lowercase (key ++ afterKey ++ counts ++ beforeCount ++ digits ++ afterCount ++
        [';'] ++ afterMark ++ chooses ++ (expression ++ ending)) =
        'p' :: ("lural-forms:".toList ++ afterKey ++ "nplurals=".toList ++ beforeCount ++ digits ++
          afterCount ++ [';'] ++ afterMark ++ "plural".toList) ++ '=' ::
          lowercase (expression ++ ending) := by
      have mark : lowercase [';'] = [';'] := rfl
      simp only [lowercase_append, isKey, lowercase_gap gapKey, isCounts, lowercase_gap gapBefore,
        lowercase_numeral denotes, lowercase_gap gapAfter, mark, lowercase_gap gapMark, isChooses]
      simp
    have whole := Text.trim_of_visible (show Text.isBlank 'p' = false by decide)
      (show Text.isBlank '=' = false by decide) ("lural-forms:".toList ++ afterKey ++
        "nplurals=".toList ++ beforeCount ++ digits ++ afterCount ++ [';'] ++ afterMark ++
        "plural".toList) (lowercase (expression ++ ending))
    have reduced := @Reduced.line afterKey beforeCount digits afterCount afterMark
      (Text.dropBlanksAtEnd (lowercase (expression ++ ending))) count gapKey gapBefore denotes
      gapAfter gapMark
    rw [Text.trim_blank_append (isBlank_of_gap gapIndent), ← trim_lowercase, small, whole,
      ← trim_value absent ends]
    simpa using reduced

theorem trim_ne_nil_of_declares {line expression : List Char} {count : Nat}
    (declares : Declares line count expression) : Text.trim expression ≠ [] := by
  cases declares with
  | line _ _ _ _ _ _ _ _ _ _ nonempty _ => exact nonempty

/-- The first line with the key is found, whatever lines are behind it. -/
theorem line_of_hasLine {text before line behind : List Char} {number : Nat}
    (stands : Text.HasLine text number before line behind)
    (first : ∀ earlier ∈ Text.lines before,
      ¬"plural-forms:".toList <+: lowercase (Text.trim earlier))
    (key : "plural-forms:".toList.isPrefixOf (lowercase (Text.trim line)) = true) :
    line? text = some (lowercase (Text.trim line)) := by
  have written : line ≠ [] := by
    rintro rfl
    revert key
    decide
  obtain ⟨later, cut⟩ := Text.lines_of_hasLine stands written
  have none : ((Text.lines before).map fun line => lowercase (Text.trim line)).find?
      "plural-forms:".toList.isPrefixOf = none := by
    rw [List.find?_eq_none]
    intro small member
    obtain ⟨earlier, there, rfl⟩ := List.mem_map.1 member
    rw [List.isPrefixOf_iff_prefix]
    exact first earlier there
  rw [line?, cut, List.map_append, List.map_cons, List.find?_append, none, Option.none_or,
    List.find?_cons_of_pos key]

/-- From the first line with the key, if it declares a number of forms and an expression, both are
read: the expression without the blanks around it and in small letters, whatever else stands in it
or in the other lines. And the case of letters makes no difference anywhere. -/
theorem ofMetadata_declared :
    (∀ (metadata : String) (before line behind expression : List Char) (number count : Nat),
      Text.HasLine metadata.toList number before line behind →
      (∀ earlier ∈ Text.lines before,
        ¬"plural-forms:".toList <+: lowercase (Text.trim earlier)) →
      Declares line count expression → count < 2 ^ 64 →
      ofMetadata? metadata =
        some ⟨some count, some (String.ofList (lowercase (Text.trim expression)))⟩) ∧
    ∀ first second : String, lowercase first.toList = lowercase second.toList →
      ofMetadata? first = ofMetadata? second := by
  constructor
  · intro metadata before line behind expression number count stands first declares fits
    have nonempty : lowercase (Text.trim expression) ≠ [] := by
      rw [lowercase, ne_eq, List.map_eq_nil_iff]
      exact trim_ne_nil_of_declares declares
    obtain ⟨key, counts, chooses⟩ :=
      parameters_of_reduced (reduced_of_declares declares) fits nonempty
    rw [ofMetadata?, ofChars?, line_of_hasLine stands first key, Option.map_some, counts, chooses]
    rfl
  · intro first second same
    rw [ofMetadata?, ofMetadata?, ofChars?, ofChars?, line_eq, line_eq, same]

theorem ofMetadata_declared_capitals :
    let metadata := "A:\nPLURAL-FORMS: nplurals=2;plural=N>1\r\n"
    let other := "a:\nplural-forms: NPLURALS=2;plural=n>1\r\n"
    ofMetadata? metadata = some ⟨some 2, some "n>1"⟩ ∧ ofMetadata? metadata = ofMetadata? other := by
  intro metadata other
  have declares : Declares "PLURAL-FORMS: nplurals=2;plural=N>1".toList 2 "N>1".toList := by
    have digit : Numeral 10 ['2'] 2 := .digit ⟨by decide, .inl rfl⟩
    have space : IsGap [' '] := List.forall_mem_singleton.2 (.inl rfl)
    have key : lowercase "PLURAL-FORMS:".toList = "plural-forms:".toList := by decide +kernel
    have counts : lowercase "nplurals=".toList = "nplurals=".toList := by decide +kernel
    have chooses : lowercase "plural=".toList = "plural=".toList := by decide +kernel
    have line := Declares.line isGap_nil key space counts isGap_nil digit isGap_nil isGap_nil chooses
      (show ';' ∉ "N>1".toList by decide +kernel) (by decide +kernel) (.inl rfl)
    simpa using line
  have stands : Text.HasLine metadata.toList 2 "A:\n".toList
      "PLURAL-FORMS: nplurals=2;plural=N>1".toList "\r\n".toList := by
    have begins : "A:\n".toList.getLast? = some '\n' := by decide +kernel
    refine ⟨by decide +kernel, by decide +kernel, fun c last => ?_, by decide +kernel, .returnFeed _⟩
    exact Option.some.inj (last.symm.trans begins)
  have small : ofMetadata? metadata = some ⟨some 2, some (String.ofList
      (lowercase (Text.trim "N>1".toList)))⟩ :=
    ofMetadata_declared.1 metadata _ _ _ _ 2 2 stands (by decide +kernel) declares (by decide)
  have value : String.ofList (lowercase (Text.trim "N>1".toList)) = "n>1" := by decide +kernel
  rw [value] at small
  exact ⟨small, ofMetadata_declared.2 metadata other (by decide +kernel)⟩

end Phrasebook.Plural.Declaration
