import Mathlib

/-! # Text forms of numbers, booleans and lists

The text forms of `fmt` and `strconv` for decimal numbers and booleans, and joining and splitting strings at a
separator, each with the law that reading undoes writing. Signed numbers are read with an optional sign and have to fit
their width; nothing else is accepted. A text without the separator occurs in joined parts exactly if it occurs in one
of them.
-/

namespace IpfsCluster.Golang

open List

/-- The value of a non-empty sequence of decimal digits. -/
def parseDigits (digits : List Char) : Option ℕ :=
  if digits ≠ [] ∧ digits.all Char.isDigit then some (Nat.ofDigitChars 10 digits 0) else none

theorem parseDigits_repr (n : ℕ) : parseDigits n.repr.toList = some n := by
  rw [parseDigits, Nat.toList_repr, if_pos, Nat.ofDigitChars_toDigits (by decide) (by decide)]
  refine ⟨Nat.toDigits_ne_nil, all_eq_true.mpr fun c member => ?_⟩
  exact Nat.isDigit_of_mem_toDigits (by decide) (by decide) member

def parseUint (s : String) : Option ℕ := (parseDigits s.toList).filter fun n => n < 2 ^ 64

theorem parseUint_repr {n : ℕ} (fits : n < 2 ^ 64) : parseUint n.repr = some n := by
  rw [parseUint, parseDigits_repr, Option.filter_some, if_pos (decide_eq_true fits)]

/-- The value of digits after an optional sign. -/
def parseSigned : List Char → Option ℤ
  | [] => none
  | c :: digits =>
    if c = '-' then (parseDigits digits).map fun n => -(n : ℤ)
    else if c = '+' then (parseDigits digits).map fun n => (n : ℤ)
    else (parseDigits (c :: digits)).map fun n => (n : ℤ)

theorem parseSigned_repr (n : ℤ) : parseSigned n.repr.toList = some n := by
  cases n with
  | ofNat n =>
    change parseSigned n.repr.toList = some (n : ℤ)
    have parsed := parseDigits_repr n
    cases digits : n.repr.toList with
    | nil =>
      rw [Nat.toList_repr] at digits
      exact (Nat.toDigits_ne_nil digits).elim
    | cons c rest =>
      have isDigit : c.isDigit = true := by
        refine @Nat.isDigit_of_mem_toDigits 10 n c (by decide) (by decide) ?_
        rw [← Nat.toList_repr, digits]
        exact mem_cons_self
      rw [digits] at parsed
      rw [parseSigned, if_neg, if_neg, parsed]
      · rfl
      · rintro rfl
        cases isDigit
      · rintro rfl
        cases isDigit
  | negSucc n =>
    change parseSigned ("-" ++ n.succ.repr).toList = some (Int.negSucc n)
    rw [String.toList_append]
    change (parseDigits n.succ.repr.toList).map (fun n => -(n : ℤ)) = some (Int.negSucc n)
    rw [parseDigits_repr]
    rfl

def atoi (s : String) : Option ℤ := (parseSigned s.toList).filter fun n => -2 ^ 63 ≤ n ∧ n < 2 ^ 63

theorem atoi_repr {n : ℤ} (lower : -2 ^ 63 ≤ n) (upper : n < 2 ^ 63) : atoi n.repr = some n := by
  rw [atoi, parseSigned_repr, Option.filter_some, if_pos (decide_eq_true ⟨lower, upper⟩)]

theorem ne_empty_of_parseSigned {s : String} {n : ℤ} (parsed : parseSigned s.toList = some n) : s ≠ "" := by
  rintro rfl
  cases parsed

def formatBool (b : Bool) : String := if b then "true" else "false"

def parseBool (s : String) : Option Bool :=
  if s ∈ ["1", "t", "T", "true", "TRUE", "True"] then some true
  else if s ∈ ["0", "f", "F", "false", "FALSE", "False"] then some false
  else none

theorem parseBool_formatBool (b : Bool) : parseBool (formatBool b) = some b := by
  cases b <;> decide

theorem formatBool_ne_empty (b : Bool) : formatBool b ≠ "" := by
  cases b <;> decide

/-- A text with the capital letters of the Latin alphabet made small. -/
def toLower (s : String) : String := String.ofList (s.toList.map Char.toLower)

def contains (s part : String) : Bool := decide (part.toList <:+: s.toList)

def startsWith (s part : String) : Bool := part.toList.isPrefixOf s.toList

theorem startsWith_iff {s part : String} : startsWith s part = true ↔ ∃ rest, s = part ++ rest := by
  rw [startsWith, isPrefixOf_iff_prefix]
  constructor
  · rintro ⟨rest, shape⟩
    exact ⟨String.ofList rest, String.toList_injective (by rw [← shape, String.toList_append, String.toList_ofList])⟩
  · rintro ⟨rest, rfl⟩
    rw [String.toList_append]
    exact prefix_append _ _

def endsWith (s part : String) : Bool := part.toList.isSuffixOf s.toList

def trimStart (s part : String) : String :=
  if startsWith s part then String.ofList (s.toList.drop part.toList.length) else s

def trimEnd (s part : String) : String :=
  if endsWith s part then String.ofList (s.toList.take (s.toList.length - part.toList.length)) else s

/-- White space of Unicode. -/
def isSpace (c : Char) : Bool :=
  c ∈ ['\t', '\n', '\x0b', '\x0c', '\r', ' ', '\u0085', '\u00a0', '\u1680', '\u2028', '\u2029',
    '\u202f', '\u205f', '\u3000'] ∨ ('\u2000' ≤ c ∧ c ≤ '\u200a')

/-- A text without white space at its ends. -/
def trimSpace (s : String) : String := String.ofList ((s.toList.dropWhile isSpace).rdropWhile isSpace)

section

variable (sep : Char)

def join (parts : List String) : String := String.ofList ([sep].intercalate (parts.map String.toList))

def split (s : String) : List String := (s.toList.splitOn sep).map String.ofList

variable {sep} {parts : List String}

theorem split_join (free : ∀ part ∈ parts, sep ∉ part.toList) (some_part : parts ≠ []) :
    split sep (join sep parts) = parts := by
  have apart : ∀ part ∈ parts.map String.toList, sep ∉ part := forall_mem_map.mpr free
  have same (part : String) : (String.ofList ∘ String.toList) part = part := String.ofList_toList
  rw [split, join, String.toList_ofList, splitOn_intercalate sep apart (map_eq_nil_iff.not.mpr some_part),
    map_map, map_congr_left fun part _ => same part, map_id']

theorem not_mem_of_mem_splitOn {chars part : List Char} (member : part ∈ chars.splitOn sep) : sep ∉ part := by
  induction chars generalizing part with
  | nil =>
    rw [splitOn_nil, mem_singleton] at member
    rw [member]
    exact not_mem_nil
  | cons c rest ih =>
    rw [splitOn_cons_eq_if_modifyHead] at member
    split at member
    · rcases mem_cons.mp member with rfl | later
      · exact not_mem_nil
      · exact ih later
    next other =>
      obtain ⟨first, parts, shape⟩ : ∃ first parts, rest.splitOn sep = first :: parts :=
        exists_cons_of_ne_nil (splitOn_ne_nil sep rest)
      have listed : ∀ part ∈ first :: parts, sep ∉ part := fun part here => ih (by rwa [shape])
      rw [shape, modifyHead_cons] at member
      rcases mem_cons.mp member with rfl | later
      · rw [mem_cons, not_or]
        exact ⟨fun same => other (beq_iff_eq.mpr same.symm), listed first mem_cons_self⟩
      · exact listed part (mem_cons_of_mem _ later)

theorem not_mem_of_mem_split {s part : String} (member : part ∈ split sep s) : sep ∉ part.toList := by
  obtain ⟨chars, listed, rfl⟩ := mem_map.mp member
  rw [String.toList_ofList]
  exact not_mem_of_mem_splitOn listed

theorem join_eq_empty_iff : join sep parts = "" ↔ parts = [] ∨ parts = [""] := by
  constructor
  · intro nothing
    have chars : [sep].intercalate (parts.map String.toList) = [] := String.ofList_injective nothing
    match parts with
    | [] => exact Or.inl rfl
    | [part] =>
      rw [map_singleton, intercalate_singleton] at chars
      exact Or.inr (by rw [String.toList_eq_nil_iff.mp chars])
    | first :: second :: rest => simp [List.intercalate] at chars
  · rintro (rfl | rfl)
    · rfl
    · rfl

theorem join_ne_empty {first : String} (some_first : first ≠ "") (rest : List String) :
    join sep (first :: rest) ≠ "" := by
  intro nothing
  rcases join_eq_empty_iff.mp nothing with none_left | only_empty
  · cases none_left
  · exact some_first (List.cons.inj only_empty).1

theorem join_split (s : String) : join sep (split sep s) = s := by
  have same (part : List Char) : (String.toList ∘ String.ofList) part = part := String.toList_ofList
  rw [join, split, map_map, map_congr_left fun part _ => same part, map_id', intercalate_splitOn, String.ofList_toList]

theorem split_injective : Function.Injective (split sep) := Function.LeftInverse.injective join_split

theorem split_append (s t : String) : split sep (s ++ String.singleton sep ++ t) = split sep s ++ split sep t := by
  rw [split, String.toList_append, String.toList_append, String.toList_singleton, append_assoc,
    singleton_append, splitOn_append_cons_self, map_append]
  rfl

theorem length_split (s : String) : (split sep s).length = s.toList.count sep + 1 := by
  rw [split, length_map]
  induction s.toList with
  | nil => rfl
  | cons c rest ih =>
    rw [splitOn_cons_eq_if_modifyHead, count_cons]
    split_ifs
    · rw [length_cons, ih]
    · rw [length_modifyHead, ih, Nat.add_zero]

theorem split_of_not_mem {s : String} (free : sep ∉ s.toList) : split sep s = [s] := by
  rw [split, splitOn_eq_singleton free, map_singleton, String.ofList_toList]

end

section

instance encodableChar : Encodable Char := .ofLeftInjection Char.toNat (fun n => some (Char.ofNat n)) fun c => by
  rw [Char.ofNat_toNat]

instance encodableString : Encodable String := .ofLeftInjection String.toList (fun chars => some (String.ofList chars)) fun s => by
  rw [String.ofList_toList]

variable {α : Type} [Encodable α]

/-- A text of digits that stands for a value. -/
def numbered (a : α) : String := (Encodable.encode a).repr

def ofNumbered (s : String) : Option α := (parseDigits s.toList).bind Encodable.decode

theorem ofNumbered_numbered (a : α) : ofNumbered (numbered a) = some a := by
  rw [ofNumbered, numbered, parseDigits_repr, Option.bind_some, Encodable.encodek]

theorem isDigit_of_mem_numbered {a : α} {c : Char} (member : c ∈ (numbered a).toList) : c.isDigit = true := by
  rw [numbered, Nat.toList_repr] at member
  exact Nat.isDigit_of_mem_toDigits (by decide) (by decide) member

end

/-- A sequence without the separator that occurs across it occurs on one side. -/
theorem infix_append_cons {α : Type} {part front back : List α} {sep : α} (free : sep ∉ part) :
    part <:+: front ++ sep :: back ↔ part <:+: front ∨ part <:+: back := by
  constructor
  · rintro ⟨before, after, same⟩
    rw [append_assoc] at same
    rcases append_eq_append_iff.mp same with ⟨middle, isFront, rest⟩ | ⟨middle, isBefore, rest⟩
    · rcases append_eq_append_iff.mp rest with ⟨_, isMiddle, -⟩ | ⟨crossing, isPart, isCrossing⟩
      · exact .inl (isFront ▸ isMiddle ▸ ⟨before, _, (append_assoc _ _ _)⟩)
      · cases crossing with
        | nil =>
          rw [append_nil] at isPart
          exact .inl (isFront ▸ isPart ▸ (suffix_append _ _).isInfix)
        | cons head crossing =>
          obtain ⟨rfl, -⟩ := List.cons.inj isCrossing
          exact absurd (isPart ▸ mem_append_right middle mem_cons_self) free
    · cases middle with
      | nil =>
        cases part with
        | nil => exact .inl nil_infix
        | cons head part =>
          obtain ⟨rfl, -⟩ := List.cons.inj rest
          exact absurd mem_cons_self free
      | cons head middle =>
        obtain ⟨-, isBack⟩ := List.cons.inj rest
        exact .inr ⟨middle, after, (append_assoc _ _ _).trans isBack.symm⟩
  · rintro (inFront | inBack)
    · exact inFront.trans (prefix_append _ _).isInfix
    · exact inBack.trans ((suffix_cons sep back).trans (suffix_append front _)).isInfix

theorem contains_join_iff {sep : Char} {parts : List String} {part : String} (free : sep ∉ part.toList)
    (some_char : part ≠ "") : contains (join sep parts) part = true ↔ ∃ one ∈ parts, contains one part = true := by
  have chars : part.toList ≠ [] := String.toList_eq_nil_iff.not.mpr some_char
  simp only [contains, join, decide_eq_true_eq, String.toList_ofList]
  induction parts with
  | nil =>
    refine iff_of_false (fun inNothing => chars (infix_nil.mp inNothing)) ?_
    rintro ⟨one, absurd, -⟩
    exact not_mem_nil absurd
  | cons first rest ih =>
    cases rest with
    | nil =>
      rw [map_singleton, intercalate_singleton]
      simp
    | cons second rest =>
      have joined : [sep].intercalate ((first :: second :: rest).map String.toList) =
          first.toList ++ sep :: [sep].intercalate ((second :: rest).map String.toList) := by
        simp [List.intercalate]
      rw [joined, infix_append_cons free, exists_mem_cons_iff]
      exact or_congr_right ih

end IpfsCluster.Golang
