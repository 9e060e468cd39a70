/-!
# Blank characters and trimming

Which characters separate words, and the text that is left when they are taken off both ends.

## Main definitions

* `isBlank`: the Unicode `White_Space` property
* `trimList`, `trim`: a text without the blanks at its two ends
* `isAllBlank`: whether nothing is left after trimming

## Main results

* `trim_trim`: a trimmed text has no blanks left to trim
* `trim_eq_empty_iff`: nothing is left of blanks, and only of blanks
-/

namespace ChargeScreening.Text

/-- The Unicode `White_Space` property: the five ASCII controls from tab to carriage return, the
next-line control, and every space, line and paragraph separator. -/
def isBlank (c : Char) : Bool :=
  let n := c.toNat
  (9 ≤ n && n ≤ 13) || n == 0x20 || n == 0x85 || n == 0xA0 || n == 0x1680
    || (0x2000 ≤ n && n ≤ 0x200A) || n == 0x2028 || n == 0x2029 || n == 0x202F || n == 0x205F
    || n == 0x3000

/-- The characters left when the blanks at the front are dropped. -/
def trimFront (cs : List Char) : List Char :=
  cs.dropWhile isBlank

/-- The characters left when the blanks at both ends are dropped. -/
def trimList (cs : List Char) : List Char :=
  (trimFront (trimFront cs).reverse).reverse

/-- The text without the blanks at its two ends. -/
def trim (s : String) : String :=
  String.ofList (trimList s.toList)

/-- Whether a text holds blanks only. -/
def isAllBlank (s : String) : Bool :=
  s.toList.all isBlank

/-! ### Trimmed texts -/

/-- What is left begins with no blank. -/
theorem isBlank_of_trimFront {cs rest : List Char} {c : Char} (h : trimFront cs = c :: rest) :
    isBlank c = false := by
  have hhead := List.head?_dropWhile_not isBlank cs
  rw [← trimFront, h] at hhead
  exact hhead

/-- Nothing is left to drop in front of what was left. -/
theorem trimFront_of_isPrefix {cs front : List Char} (h : front.IsPrefix (trimFront cs)) :
    trimFront front = front := by
  cases front with
  | nil => rfl
  | cons c rest =>
    obtain ⟨others, hothers⟩ := h
    have hc : isBlank c = false := isBlank_of_trimFront hothers.symm
    rw [trimFront, List.dropWhile_cons, hc]
    rfl

theorem trimList_trimList (cs : List Char) : trimList (trimList cs) = trimList cs := by
  have hback : trimFront (trimFront (trimFront cs).reverse) = trimFront (trimFront cs).reverse :=
    trimFront_of_isPrefix (List.prefix_refl _)
  have hprefix : (trimList cs).IsPrefix (trimFront cs) := by
    rw [← List.reverse_suffix, trimList, List.reverse_reverse]
    exact List.dropWhile_suffix _
  rw [trimList, trimFront_of_isPrefix hprefix, trimList, List.reverse_reverse, hback]

/-- A trimmed text has no blanks left to trim. -/
theorem trim_trim (s : String) : trim (trim s) = trim s := by
  rw [trim, trim, String.toList_ofList, trimList_trimList]

theorem trimFront_eq_nil_iff {cs : List Char} : trimFront cs = [] ↔ cs.all isBlank = true := by
  induction cs with
  | nil => exact iff_of_true rfl rfl
  | cons c rest ih =>
    rw [trimFront, List.dropWhile_cons, List.all_cons]
    cases isBlank c with
    | true => exact ih
    | false => exact iff_of_false (List.cons_ne_nil _ _) Bool.false_ne_true

theorem trimList_eq_nil_iff {cs : List Char} : trimList cs = [] ↔ cs.all isBlank = true := by
  rw [trimList, List.reverse_eq_nil_iff, trimFront_eq_nil_iff, List.all_reverse]
  constructor
  · intro h
    cases hleft : trimFront cs with
    | nil => exact trimFront_eq_nil_iff.mp hleft
    | cons c rest =>
      rw [hleft, List.all_cons, isBlank_of_trimFront hleft] at h
      cases h
  · intro h
    rw [trimFront_eq_nil_iff.mpr h]
    rfl

/-- Nothing is left of a text just if it holds blanks only. -/
theorem trim_eq_empty_iff {s : String} : trim s = "" ↔ isAllBlank s = true := by
  rw [trim, String.ofList_eq_empty_iff, trimList_eq_nil_iff, isAllBlank]

/-- A trimmed text is more than blanks unless it is empty. -/
theorem isAllBlank_of_trim_eq {s : String} (h : trim s = s) (hne : s ≠ "") :
    isAllBlank s = false := by
  rwa [← Bool.not_eq_true, ← trim_eq_empty_iff, h]

/-- A text with its ASCII capitals in lower case; every other character stays as it is. -/
def asciiLower (s : String) : String :=
  String.ofList (s.toList.map Char.toLower)

/-- A text with its ASCII small letters as capitals; every other character stays as it is. -/
def asciiUpper (s : String) : String :=
  String.ofList (s.toList.map Char.toUpper)

/-- How many bytes the UTF-8 form of a list of characters takes. -/
def byteLength : List Char → Nat
  | [] => 0
  | c :: cs => c.utf8Size + byteLength cs

@[simp] theorem byteLength_nil : byteLength [] = 0 := rfl

@[simp] theorem byteLength_cons (c : Char) (cs : List Char) :
    byteLength (c :: cs) = c.utf8Size + byteLength cs := rfl

@[simp] theorem byteLength_append (as bs : List Char) :
    byteLength (as ++ bs) = byteLength as + byteLength bs := by
  induction as with
  | nil => simp
  | cons a as ih => simp [ih, Nat.add_assoc]

end ChargeScreening.Text
