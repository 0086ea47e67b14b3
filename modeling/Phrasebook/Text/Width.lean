import Phrasebook.Text.Emoji
import Phrasebook.Text.Ligature

/-!
The width of a text on a terminal, in columns. It is the sum of the widths of its characters,
except where some of them are drawn as one: emoji that are joined or have a skin tone, emoji with
a selector behind them, and ligatures. A text is measured from its end, so that every character
finds what follows it.
-/

namespace Phrasebook.Text

inductive EmojiForm where
  | text
  | picture
  deriving DecidableEq

inductive Joining where
  | nothing
  | keycap
  | selector
  | flagLetters (count : Nat)
  | tags (letters digits : Nat)
  deriving DecidableEq

/-- What follows a character, as far as the width of the character depends on it. -/
inductive Following where
  | other
  | lineFeed
  | selector (form : EmojiForm)
  | quoteSelector
  | ligature (last : LigatureEnd) (joined : Bool) (form : Option EmojiForm)
  | vowelE
  | vowelAi
  | picture
  | modifier
  | flagLetters (several : Bool)
  | joined (part : Joining)
  deriving DecidableEq

namespace Following

def form? : Following → Option EmojiForm
  | selector form => some form
  | ligature _ _ form => form
  | joined .selector => some .picture
  | _ => none

/-- What is left when the character in front does not take the form asked for. -/
def withoutForm : Following → Following
  | selector _ => other
  | ligature last isJoined _ => ligature last isJoined none
  | joined .selector => other
  | following => following

def selecting (form : EmojiForm) (following : Following) : Following :=
  match following, form with
  | ligature last isJoined _, _ => ligature last isJoined (some form)
  | joined .nothing, .picture => joined .selector
  | joined .keycap, .picture => joined .selector
  | _, _ => selector form

/-- What a character is to the one in front of it, if nothing is drawn as one with it. -/
def ofChar (c : Char) : Following :=
  match LigatureEnd.ofLetter? c with
  | some last => ligature last false none
  | none =>
    if c = '\ufe01' then quoteSelector
    else if c.toNat = 0x16d67 then vowelE
    else if c.toNat = 0x16d68 then vowelAi
    else if isFlagLetter c then flagLetters false
    else if isModifier c then modifier
    else if isPicture c then picture
    else other

def canBeJoined : Following → Bool
  | picture => true
  | modifier => true
  | flagLetters several => several
  | joined (.flagLetters count) => 2 ≤ count
  | _ => false

end Following

def alone (c : Char) : Int × Following :=
  (widthOf c, .ofChar c)

/-- Places a character in front of a joiner with a picture behind it. A picture that is joined
takes no columns of its own, nor does a flag. -/
def placeJoined (c : Char) : Joining → Int × Following
  | .nothing =>
    if c = '\u20e3' then (0, .joined .keycap)
    else if isFlagLetter c then (1, .joined (.flagLetters 1))
    else if isModifier c then (0, .modifier)
    else if c.toNat = 0xe007f then (0, .joined (.tags 0 0))
    else if isPicture c then (0, .picture)
    else alone c
  | .flagLetters count =>
    if isFlagLetter c then (if count % 2 = 1 then -1 else 3, .joined (.flagLetters (count + 1)))
    else alone c
  | .tags letters digits =>
    if 0xe0061 ≤ c.toNat ∧ c.toNat ≤ 0xe007a ∧ digits = 0 ∧ letters < 6 then
      (0, .joined (.tags (letters + 1) 0))
    else if 0xe0030 ≤ c.toNat ∧ c.toNat ≤ 0xe0039 ∧
        (digits = 0 ∧ letters ≤ 4 ∨ digits = 1 ∨ digits = 2) then
      (0, .joined (.tags letters (digits + 1)))
    else if c.toNat = 0x1f3f4 ∧ (digits = 0 ∧ 3 ≤ letters ∨ digits = 3) then (0, .picture)
    else alone c
  | _ => alone c

def placeLetter (c : Char) (following : Following) : Int × Following :=
  if c = zeroWidthJoiner ∧ following.canBeJoined then (0, .joined .nothing)
  else match following with
  | .ligature last joined _ =>
    match last.precededBy? joined c with
    | some (columns, some rest) => (columns, .ligature rest true none)
    | some (columns, none) => (columns, .other)
    | none =>
      if last.passes c then (0, .ligature last (joined || c = zeroWidthJoiner) none) else alone c
  | .modifier => if isModifierBase c then (0, .picture) else alone c
  | .flagLetters _ => if isFlagLetter c then (1, .flagLetters true) else alone c
  | .joined part => placeJoined c part
  | .quoteSelector =>
    if c = '\u2018' ∨ c = '\u2019' ∨ c = '\u201c' ∨ c = '\u201d' then (2, .other) else alone c
  | .vowelE =>
    if c.toNat = 0x16d63 ∨ c.toNat = 0x16d69 then (0, .other)
    else if c.toNat = 0x16d67 then (0, .vowelAi)
    else if c.toNat = 0x16d68 then (1, .vowelE)
    else alone c
  | .vowelAi => if c.toNat = 0x16d63 then (0, .other) else alone c
  | _ => alone c

/-- Whether an emoji becomes narrow in its text form. -/
def narrowsAsText (c : Char) : Bool :=
  isPicture c && hasForms c && !(0x1f200 ≤ c.toNat && c.toNat ≤ 0x1f2ff)

/-- The columns that a character adds in front of what follows it, and what the two are to the
character in front of them. -/
def place (c : Char) (following : Following) : Int × Following :=
  if following.form? = some .picture ∧ hasForms c then
    (if following = .joined .selector then 0 else 2, .picture)
  else if c.toNat ≤ 0xa0 then
    (if c = '\r' ∧ following = .lineFeed then 0 else 1, if c = '\n' then .lineFeed else .other)
  else if c = '\ufe0f' then (0, following.selecting .picture)
  else if c = '\ufe0e' then (0, following.selecting .text)
  else if following.form? = some .text ∧ narrowsAsText c then (1, .other)
  else placeLetter c following.withoutForm

def measure : List Char → Int × Following :=
  List.foldr (fun c (columns, following) => ((place c following).1 + columns,
    (place c following).2)) (0, .other)

def displayWidth (text : List Char) : Nat :=
  (measure text).1.toNat

theorem measure_cons (c : Char) (rest : List Char) :
    measure (c :: rest) =
      ((place c (measure rest).2).1 + (measure rest).1, (place c (measure rest).2).2) := rfl

theorem place_basic {c : Char} (basic : c.toNat ≤ 0xa0) (inLine : c ≠ '\n') :
    place c .other = (1, .other) := by
  simp [place, Following.form?, basic, inLine]

theorem measure_basic {text : List Char} (basic : ∀ c ∈ text, c.toNat ≤ 0xa0 ∧ c ≠ '\n') :
    measure text = ((text.length : Int), Following.other) := by
  induction text with
  | nil => rfl
  | cons c rest ih =>
    have here := basic c (by simp)
    rw [measure_cons, ih fun d member => basic d (by simp [member]),
      place_basic here.1 here.2]
    simp [Int.add_comm]

theorem displayWidth_basic {text : List Char}
    (basic : ∀ c ∈ text, c.toNat ≤ 0xa0 ∧ c ≠ '\n') : displayWidth text = text.length := by
  simp [displayWidth, measure_basic basic]

end Phrasebook.Text
