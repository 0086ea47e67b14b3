/-!
Cutting a text into items from left to right. At each place the rule for items sees all of the
text from there on, so that it can take the longest item it knows.
-/

namespace Phrasebook.Text

variable {α : Type}

/-- Cuts the text after `skip` of its characters, which an earlier item has taken. -/
def scanAfter (item : List Char → α × Nat) : Nat → List Char → List α
  | _, [] => []
  | skip + 1, _ :: rest => scanAfter item skip rest
  | 0, c :: rest =>
    let found := item (c :: rest)
    found.1 :: scanAfter item (found.2 - 1) rest

/-- Every item takes as many characters as the rule says, and one at the least. -/
def scan (item : List Char → α × Nat) (text : List Char) : List α :=
  scanAfter item 0 text

theorem scanAfter_eq (item : List Char → α × Nat) (skip : Nat) (text : List Char) :
    scanAfter item skip text = scan item (text.drop skip) := by
  induction text generalizing skip with
  | nil => cases skip <;> simp [scan, scanAfter]
  | cons c rest ih =>
    cases skip with
    | zero => rfl
    | succ skip => simpa [scanAfter] using ih skip

theorem scan_nil (item : List Char → α × Nat) : scan item [] = [] := rfl

theorem scan_cons (item : List Char → α × Nat) (c : Char) (rest : List Char) :
    scan item (c :: rest) =
      (item (c :: rest)).1 :: scan item (rest.drop ((item (c :: rest)).2 - 1)) := by
  show (item (c :: rest)).1 :: scanAfter item ((item (c :: rest)).2 - 1) rest = _
  rw [scanAfter_eq]

end Phrasebook.Text
