import Mathlib.Data.List.DropRight
import Mathlib.Algebra.GroupWithZero.Nat
import Mathlib.Algebra.Ring.Int.Defs

/-! # Fragments of the Go language and standard library

The parts of Go that the modelled code leans on, independent of any program: `strings.TrimSpace`
and `len` on strings, the wrap-around of `int64` arithmetic, and error values built with
`errors.New` and `fmt.Errorf("%w: …")`. Fallible functions are embedded in `Except`, and
`failIf c e` is the statement `if c { return e }`; the `simp` set at the end inverts a successful
run of such a function into the facts its guards established. -/

namespace Prox

open List

/-! ## Strings -/

/-- `unicode.IsSpace`: the ASCII blanks, `U+0085`, `U+00A0` and the Unicode category `Z`. -/
def isSpace (c : Char) : Bool :=
  c.toNat ∈ [0x09, 0x0A, 0x0B, 0x0C, 0x0D, 0x20, 0x85, 0xA0, 0x1680, 0x2028, 0x2029, 0x202F,
    0x205F, 0x3000] || (0x2000 ≤ c.toNat && c.toNat ≤ 0x200A)

/-- `strings.TrimSpace`. -/
def trimSpace (s : String) : String :=
  String.ofList ((s.toList.dropWhile isSpace).rdropWhile isSpace)

/-- `strings.ToLower`, as far as the result can be compared with an ASCII text: the Kelvin sign and the
dotted `İ` are the only characters beyond ASCII whose lower case is within it. -/
def toLowerAscii (s : String) : String :=
  s.map fun c => if c.toNat = 0x212A then 'k' else if c.toNat = 0x130 then 'i' else c.toLower

/-- `len(s)`: the number of bytes of the UTF-8 encoding. -/
def byteLen (s : String) : Nat := s.utf8ByteSize

/-- The characters that fit into `n` bytes. -/
def takeBytes : Nat → List Char → List Char
  | _, [] => []
  | n, c :: cs => if c.utf8Size ≤ n then c :: takeBytes (n - c.utf8Size) cs else []

/-- `s[:n]`, where a character that byte `n` would cut in two is dropped as a whole: a text column
holds no half characters. -/
def bytePrefix (n : Nat) (s : String) : String := String.ofList (takeBytes n s.toList)

/-- What a `strings.Builder` holds: texts one after the other. -/
def concat (texts : List String) : String := texts.foldr (· ++ ·) ""

/-- `strings.HasPrefix(s, p)`. -/
def hasPrefix (s p : String) : Bool := p.toList.isPrefixOf s.toList

/-- `s[len(p):]`, for a text that begins with `p`. -/
def afterPrefix (s p : String) : String := String.ofList (s.toList.drop p.toList.length)

/-- The texts between the separators, character by character. -/
def splitChars (sep : Char) : List Char → List (List Char)
  | [] => [[]]
  | c :: cs =>
    if c = sep then [] :: splitChars sep cs
    else
      match splitChars sep cs with
      | [] => [[c]]
      | first :: rest => (c :: first) :: rest

/-- `strings.Split(s, sep)` for a separator of one character: a text without it is the only part, and
the empty text has one empty part. -/
def splitOn (sep : Char) (s : String) : List String := (splitChars sep s.toList).map String.ofList

theorem splitOn_ne_nil (sep : Char) (s : String) : splitOn sep s ≠ [] := by
  rw [splitOn, ne_eq]
  cases s.toList with
  | nil => exact cons_ne_nil _ _
  | cons c cs =>
    rw [splitChars]
    split
    · exact cons_ne_nil _ _
    · split <;> exact cons_ne_nil _ _

/-- `strings.Contains(s, t)`. -/
def containsText (s t : String) : Bool := s.toList.tails.any (t.toList.isPrefixOf ·)

/-- `strings.Trim(s, cut)` for a cut set of one character. -/
def trimChar (cut : Char) (s : String) : String :=
  String.ofList ((s.toList.dropWhile (· = cut)).rdropWhile (· = cut))

theorem concat_append (xs ys : List String) : concat (xs ++ ys) = concat xs ++ concat ys := by
  induction xs with
  | nil => exact String.empty_append.symm
  | cons x xs ih =>
    change x ++ concat (xs ++ ys) = x ++ concat xs ++ concat ys
    rw [ih, String.append_assoc]

theorem concat_eq_empty_iff {xs : List String} : concat xs = "" ↔ ∀ x ∈ xs, x = "" := by
  induction xs with
  | nil => exact iff_of_true rfl nofun
  | cons x xs ih =>
    rw [forall_mem_cons, ← ih]
    exact String.append_eq_empty_iff

/-- Nothing put together often is nothing. -/
@[simp] theorem concat_replicate_empty (n : Nat) : concat (List.replicate n "") = "" := by
  induction n with
  | zero => rfl
  | succ n ih => exact ih

/-- A last text says what all of them say exactly when there is nothing before it. -/
theorem getLast?_eq_concat_iff {xs : List String} :
    xs.getLast?.getD "" = concat xs ↔ ∀ x ∈ xs.dropLast, x = "" := by
  rcases eq_nil_or_concat xs with rfl | ⟨ys, x, rfl⟩
  · exact iff_of_true rfl (by simp)
  · have hconcat : concat (ys ++ [x]) = concat ys ++ x := by
      rw [concat_append]
      show concat ys ++ (x ++ "") = _
      rw [String.append_empty]
    rw [concat_eq_append, List.getLast?_append, dropLast_concat, hconcat,
      ← concat_eq_empty_iff]
    show x = concat ys ++ x ↔ _
    exact ⟨fun h => String.append_eq_right_iff.mp h.symm, fun h => by rw [h, String.empty_append]⟩

theorem hasPrefix_empty (s : String) : hasPrefix s "" = true := by
  rfl

theorem hasPrefix_self (s : String) : hasPrefix s s = true :=
  isPrefixOf_iff_prefix.mpr (prefix_refl _)

variable {s : String}

/-- A text begins with its first part. -/
theorem hasPrefix_iff {p : String} : hasPrefix s p = true ↔ p ++ afterPrefix s p = s := by
  unfold hasPrefix afterPrefix
  rw [ isPrefixOf_iff_prefix, prefix_iff_eq_append, ← String.toList_inj, String.toList_append,
    String.toList_ofList]

/-- Dropping a prefix after a suffix changes nothing once the prefix is gone: the first kept element
survives the right trim, so it still stops the left one. -/
theorem dropWhile_rdropWhile_dropWhile {α : Type*} (p : α → Bool) (l : List α) :
    ((l.dropWhile p).rdropWhile p).dropWhile p = (l.dropWhile p).rdropWhile p := by
  generalize hm : (l.dropWhile p).rdropWhile p = m
  cases m with
  | nil => rfl
  | cons a m =>
    obtain ⟨t, ht⟩ := rdropWhile_prefix p (l := l.dropWhile p)
    rw [hm, cons_append] at ht
    have ha : p a = false := by
      have hne : l.dropWhile p ≠ [] := by rw [← ht]; exact cons_ne_nil _ _
      have hhead := head_dropWhile_not p hne
      simpa only [← ht, head_cons] using hhead
    rw [dropWhile_cons_of_neg (by simp [ha])]

@[simp] theorem trimSpace_empty : trimSpace "" = "" := by decide

/-- Trimming is idempotent: a stored, already trimmed string is a fixed point. -/
@[simp] theorem trimSpace_trimSpace (s : String) : trimSpace (trimSpace s) = trimSpace s := by
  simp only [trimSpace, String.toList_ofList]
  rw [dropWhile_rdropWhile_dropWhile, rdropWhile_idempotent]

/-- A text that begins and ends with a character other than a blank is its own trim. -/
theorem trimSpace_eq_self {a b : Char} {l r : List Char} (hs : s.toList = a :: l)
    (hs' : s.toList = r ++ [b]) (ha : isSpace a = false) (hb : isSpace b = false) :
    trimSpace s = s := by
  have hdrop : s.toList.dropWhile isSpace = s.toList := by
    rw [hs, dropWhile_cons_of_neg (by simp [ha])]
  have hrdrop : s.toList.rdropWhile isSpace = s.toList := by
    rw [hs', rdropWhile_concat_neg _ _ _ (by simp [hb])]
  rw [trimSpace, hdrop, hrdrop, String.ofList_toList]

/-- A trimmed text that is not empty begins and ends with a character other than a blank. -/
theorem exists_ends_of_trimSpace_eq (h : trimSpace s = s) (hne : s ≠ "") :
    (∃ a l, s.toList = a :: l ∧ isSpace a = false) ∧
      ∃ l b, s.toList = l ++ [b] ∧ isSpace b = false := by
  have hlist : (s.toList.dropWhile isSpace).rdropWhile isSpace = s.toList := by
    have := congrArg String.toList h
    rwa [trimSpace, String.toList_ofList] at this
  have hnil : s.toList ≠ [] := by
    rwa [ne_eq, String.toList_eq_nil_iff]
  constructor
  · -- the head survives the left trim, whose result has the text as a prefix
    obtain ⟨a, l, ha⟩ := exists_cons_of_ne_nil hnil
    refine ⟨a, l, ha, ?_⟩
    obtain ⟨t, ht⟩ := rdropWhile_prefix isSpace (l := s.toList.dropWhile isSpace)
    rw [hlist, ha, cons_append] at ht
    have hdrop : (a :: l).dropWhile isSpace ≠ [] := by rw [← ht]; exact cons_ne_nil _ _
    have hhead := head_dropWhile_not isSpace hdrop
    simpa only [← ht, head_cons] using hhead
  · refine ⟨s.toList.dropLast, s.toList.getLast hnil, (dropLast_append_getLast hnil).symm, ?_⟩
    have hlast := rdropWhile_last_not isSpace (s.toList.dropWhile isSpace) (by rwa [hlist])
    simpa only [hlist, Bool.not_eq_true] using hlast

/-- Between trimmed texts any text is trimmed. -/
theorem trimSpace_enclosed {t : String} (m : String) (hs : trimSpace s = s) (ht : trimSpace t = t)
    (hs' : s ≠ "") (ht' : t ≠ "") : trimSpace (s ++ m ++ t) = s ++ m ++ t := by
  obtain ⟨⟨a, l, hl, ha⟩, -⟩ := exists_ends_of_trimSpace_eq hs hs'
  obtain ⟨-, l', b, hl', hb⟩ := exists_ends_of_trimSpace_eq ht ht'
  refine trimSpace_eq_self (l := l ++ m.toList ++ t.toList) (r := s.toList ++ m.toList ++ l') ?_ ?_ ha hb
  · rw [String.toList_append, String.toList_append, hl, cons_append, cons_append]
  · rw [String.toList_append, String.toList_append, hl', ← append_assoc]

/-- Trimmed texts that are not empty are trimmed together. -/
theorem trimSpace_append {t : String} (hs : trimSpace s = s) (ht : trimSpace t = t) (hs' : s ≠ "")
    (ht' : t ≠ "") : trimSpace (s ++ t) = s ++ t := by
  simpa only [String.append_empty] using trimSpace_enclosed "" hs ht hs' ht'

/-- Trimming keeps a trimmed text at the front. -/
theorem exists_trimSpace_append {p : String} (hp : trimSpace p = p) (hne : p ≠ "") (s : String) :
    ∃ s', trimSpace (p ++ s) = p ++ s' := by
  obtain ⟨⟨a, l, hl, ha⟩, l', b, hl', hb⟩ := exists_ends_of_trimSpace_eq hp hne
  have hdrop : (p ++ s).toList.dropWhile isSpace = p.toList ++ s.toList := by
    rw [String.toList_append, hl, cons_append, dropWhile_cons_of_neg (by simp [ha])]
  -- the last character of `p` stops the right trim
  obtain ⟨t, ht⟩ : ∃ t, (p.toList ++ s.toList).rdropWhile isSpace = p.toList ++ t := by
    induction s.toList using List.reverseRecOn with
    | nil =>
      refine ⟨[], ?_⟩
      rw [append_nil, hl', rdropWhile_concat_neg _ _ _ (by simp [hb])]
    | append_singleton s c ih =>
      by_cases hc : isSpace c = true
      · obtain ⟨t, ht⟩ := ih
        refine ⟨t, ?_⟩
        rw [← ht, ← append_assoc, rdropWhile_concat_pos _ _ _ hc]
      · refine ⟨s ++ [c], ?_⟩
        rw [← append_assoc, rdropWhile_concat_neg _ _ _ hc]
  refine ⟨String.ofList t, ?_⟩
  rw [trimSpace, hdrop, ht, String.ofList_append, String.ofList_toList]

/-- A text with a character other than a blank is not blank. -/
theorem trimSpace_ne_empty {c : Char} (hc : c ∈ s.toList) (h : isSpace c = false) :
    trimSpace s ≠ "" := by
  rw [trimSpace, ne_eq, String.ofList_eq_empty_iff, rdropWhile_eq_nil_iff]
  intro hall
  have hne : s.toList.dropWhile isSpace ≠ [] := by
    rw [ne_eq, dropWhile_eq_nil_iff]
    exact fun hspace => by simp [hspace c hc] at h
  have hhead := head_dropWhile_not isSpace hne
  rw [hall _ (head_mem hne)] at hhead
  cases hhead

/-- The bytes of a text that fits stay in front. -/
theorem takeBytes_append {n : Nat} {l r : List Char} (h : (l.map Char.utf8Size).sum ≤ n) :
    ∃ t, takeBytes n (l ++ r) = l ++ t := by
  induction l generalizing n with
  | nil => exact ⟨_, rfl⟩
  | cons c cs ih =>
    rw [map_cons, sum_cons] at h
    obtain ⟨t, ht⟩ := ih (n := n - c.utf8Size) (by omega)
    refine ⟨t, ?_⟩
    rw [cons_append, takeBytes, if_pos (by omega), ht, cons_append]

/-- The decimal text of a number that is not negative. -/
theorem toList_toString_natCast (n : Nat) : (toString (n : Int)).toList = Nat.toDigits 10 n := by
  have hn : toString (n : Int) = Nat.repr n := rfl
  rw [hn, Nat.toList_repr]

/-- A decimal text that no further digit follows can be read back. -/
theorem toDigits_append_inj {m n : Nat} {s t : List Char} (hs : ∀ c ∈ s.head?, c.isDigit = false)
    (ht : ∀ c ∈ t.head?, c.isDigit = false) (h : Nat.toDigits 10 m ++ s = Nat.toDigits 10 n ++ t) :
    m = n ∧ s = t := by
  have hdigits : ∀ (k : Nat) (u : List Char), (∀ c ∈ u.head?, c.isDigit = false) →
      (Nat.toDigits 10 k ++ u).takeWhile Char.isDigit = Nat.toDigits 10 k := by
    intro k u hu
    have hall : ∀ c ∈ Nat.toDigits 10 k, c.isDigit = true := fun c hc =>
      Nat.isDigit_of_mem_toDigits (by decide) (by decide) hc
    rw [takeWhile_append_of_pos hall]
    cases u with
    | nil => simp
    | cons c u => rw [takeWhile_cons_of_neg (by simp [hu c rfl]), append_nil]
  have heq : Nat.toDigits 10 m = Nat.toDigits 10 n := by
    rw [← hdigits m s hs, ← hdigits n t ht, h]
  have hmn := congrArg (fun l => Nat.ofDigitChars 10 l 0) heq
  simp only [Nat.ofDigitChars_ten_toDigits] at hmn
  exact ⟨hmn, append_cancel_left (heq ▸ h)⟩

/-- Digits are no blanks. -/
theorem isSpace_eq_false_of_isDigit {c : Char} (h : c.isDigit) : isSpace c = false := by
  have h1 : 48 ≤ c.toNat ∧ c.toNat ≤ 57 := by
    simp only [Char.isDigit, Bool.and_eq_true, decide_eq_true_eq] at h
    exact ⟨h.1, h.2⟩
  simp only [isSpace, mem_cons, not_mem_nil, or_false, Bool.or_eq_false_iff,
    decide_eq_false_iff_not, Bool.and_eq_false_iff]
  omega

/-- The characters of a number: the digits, after a sign. -/
theorem toList_toString_int (x : Int) :
    (∃ n : Nat, x = n ∧ (toString x).toList = Nat.toDigits 10 n) ∨
      ∃ n : Nat, x = Int.negSucc n ∧ (toString x).toList = '-' :: Nat.toDigits 10 (n + 1) := by
  cases x with
  | ofNat n => exact .inl ⟨n, rfl, toList_toString_natCast n⟩
  | negSucc n =>
    have htext : toString (Int.negSucc n) = "-" ++ toString ((n + 1 : Nat) : Int) := rfl
    refine .inr ⟨n, rfl, ?_⟩
    rw [htext, String.toList_append, toList_toString_natCast]
    rfl

theorem isDigit_of_mem_toDigits {n : Nat} {c : Char} (h : c ∈ Nat.toDigits 10 n) : c.isDigit = true :=
  Nat.isDigit_of_mem_toDigits (by decide) (by decide) h

theorem colon_notMem_toString (x : Int) : ':' ∉ (toString x).toList := by
  intro h
  rcases toList_toString_int x with ⟨n, -, hx⟩ | ⟨n, -, hx⟩
  · rw [hx] at h
    exact absurd (isDigit_of_mem_toDigits h) (by decide)
  · rw [hx] at h
    rcases mem_cons.mp h with h | h
    · exact absurd h (by decide)
    · exact absurd (isDigit_of_mem_toDigits h) (by decide)

theorem toString_int_inj {x y : Int} (h : toString x = toString y) : x = y := by
  have hlist := congrArg String.toList h
  have hdigits : ∀ {m n : Nat}, Nat.toDigits 10 m = Nat.toDigits 10 n → m = n := fun {m n} hmn =>
    (toDigits_append_inj (s := []) (t := []) (by simp) (by simp) (by rw [hmn])).1
  -- a sign is no digit
  have hsign : ∀ {m n : Nat}, Nat.toDigits 10 m ≠ '-' :: Nat.toDigits 10 n := fun {m n} hmn => by
    have hminus : '-' ∈ Nat.toDigits 10 m := hmn ▸ mem_cons_self
    exact absurd (isDigit_of_mem_toDigits hminus) (by decide)
  rcases toList_toString_int x with ⟨m, rfl, hx⟩ | ⟨m, rfl, hx⟩ <;>
    rcases toList_toString_int y with ⟨n, rfl, hy⟩ | ⟨n, rfl, hy⟩ <;> rw [hx, hy] at hlist
  · rw [hdigits hlist]
  · exact absurd hlist hsign
  · exact absurd hlist.symm hsign
  · obtain rfl : m = n := Nat.succ.inj (hdigits (cons_eq_cons.mp hlist).2)
    rfl

/-- The last of the fields that colons separate can be read back. -/
theorem append_colon_inj {a b x y : String} (hx : ':' ∉ x.toList) (hy : ':' ∉ y.toList)
    (h : a ++ ":" ++ x = b ++ ":" ++ y) : a = b ∧ x = y := by
  have hlist := congrArg String.toList h
  have hcolon : ":".toList = [':'] := rfl
  simp only [String.toList_append, hcolon, append_assoc, singleton_append] at hlist
  rcases append_eq_append_iff.mp hlist with ⟨l, hb, hl⟩ | ⟨l, ha, hl⟩
  · cases l with
    | nil =>
      rw [append_nil] at hb
      exact ⟨String.toList_inj.mp hb.symm, String.toList_inj.mp (cons_eq_cons.mp hl).2⟩
    | cons c l =>
      -- the separator would be a part of `x`
      have hmem : ':' ∈ x.toList := by
        rw [(cons_eq_cons.mp hl).2]
        simp
      exact absurd hmem hx
  · cases l with
    | nil =>
      rw [append_nil] at ha
      exact ⟨String.toList_inj.mp ha, String.toList_inj.mp (cons_eq_cons.mp hl).2.symm⟩
    | cons c l =>
      have hmem : ':' ∈ y.toList := by
        rw [(cons_eq_cons.mp hl).2]
        simp
      exact absurd hmem hy

/-- The text of a number is trimmed. -/
theorem trimSpace_toString (x : Int) : trimSpace (toString x) = toString x ∧ toString x ≠ "" := by
  have hnat : ∀ n : Nat, trimSpace (toString (n : Int)) = toString (n : Int) ∧
      toString (n : Int) ≠ "" := by
    intro n
    have hlist := toList_toString_natCast n
    have hne : Nat.toDigits 10 n ≠ [] := Nat.toDigits_ne_nil
    have hdigit : ∀ c ∈ Nat.toDigits 10 n, isSpace c = false := fun c hc =>
      isSpace_eq_false_of_isDigit (Nat.isDigit_of_mem_toDigits (by decide) (by decide) hc)
    obtain ⟨a, l, ha⟩ := exists_cons_of_ne_nil hne
    constructor
    · exact trimSpace_eq_self (hlist.trans ha)
        (hlist.trans (dropLast_append_getLast hne).symm) (hdigit a (by simp [ha]))
        (hdigit _ (getLast_mem hne))
    · intro h
      rw [h] at hlist
      exact hne hlist.symm
  cases x with
  | ofNat n => exact hnat n
  | negSucc n =>
    obtain ⟨htrim, hne⟩ := hnat (n + 1)
    have htext : toString (Int.negSucc n) = "-" ++ toString ((n + 1 : Nat) : Int) := rfl
    refine ⟨trimSpace_append (by decide) htrim (by decide) hne, fun h => ?_⟩
    exact hne (String.append_eq_empty_iff.mp h).2

/-- A label and a number are trimmed together. -/
theorem trimSpace_label_append (hs : trimSpace s = s) (hne : s ≠ "") (x : Int) :
    trimSpace (s ++ toString x) = s ++ toString x ∧ s ++ toString x ≠ "" :=
  ⟨trimSpace_append hs (trimSpace_toString x).1 hne (trimSpace_toString x).2,
    fun h => hne (String.append_eq_empty_iff.mp h).1⟩

/-- A text and a separator are trimmed together. -/
theorem trimSpace_append_colon (h : trimSpace s = s ∧ s ≠ "") :
    trimSpace (s ++ ":") = s ++ ":" ∧ s ++ ":" ≠ "" :=
  ⟨trimSpace_append h.1 (by decide) h.2 (by decide),
    fun h' => h.2 (String.append_eq_empty_iff.mp h').1⟩

/-- The bytes of a text are those of its characters. -/
theorem byteLen_ofList (l : List Char) : byteLen (String.ofList l) = (l.map Char.utf8Size).sum := by
  induction l with
  | nil => rfl
  | cons c l ih =>
    simp only [byteLen] at ih ⊢
    rw [String.ofList_cons, String.utf8ByteSize_append, ih]
    simp

/-- A text of digits has one byte for each. -/
theorem byteLen_ofList_digits {l : List Char} (h : ∀ c ∈ l, c.isDigit = true) :
    byteLen (String.ofList l) = l.length := by
  rw [byteLen_ofList]
  induction l with
  | nil => rfl
  | cons c l ih =>
    have hc : c.utf8Size = 1 := by
      have hdigit := h c (by simp)
      simp only [Char.isDigit, Bool.and_eq_true, decide_eq_true_eq] at hdigit
      rw [Char.utf8Size_eq_one_iff]
      have hle : c.val.toNat ≤ 57 := hdigit.2
      show c.val.toNat ≤ 127
      omega
    have ih := ih fun x hx => h x (by simp [hx])
    simp only [map_cons, sum_cons, length_cons]
    omega

/-- A positive `int` has at most nineteen digits. -/
theorem byteLen_toString_le {x : Int} (hpos : 0 < x) (hlt : x < 2 ^ 63) : byteLen (toString x) ≤ 19 := by
  rcases toList_toString_int x with ⟨n, rfl, hlist⟩ | ⟨n, rfl, -⟩
  · rw [← String.ofList_toList (s := toString (n : Int)), hlist,
      byteLen_ofList_digits fun c hc => isDigit_of_mem_toDigits hc]
    exact (Nat.length_toDigits_le_iff (by decide) (by decide)).mpr (by omega)
  · omega

/-! ## Integers -/

/-- Go `int64` arithmetic: the representative of `x` modulo `2^64` in `[-2^63, 2^63)`. -/
def wrapInt64 (x : Int) : Int := x.bmod (2 ^ 64)

/-- Values inside the `int64` range do not wrap. -/
theorem wrapInt64_of_range {x : Int} (hlo : -(2 ^ 63) ≤ x) (hhi : x < 2 ^ 63) : wrapInt64 x = x := by
  rw [wrapInt64, Int.bmod_eq_of_le] <;> omega

/-- `strconv.Atoi`: decimal digits after an optional sign, within the range of an `int`. -/
def atoi (s : String) : Option Int :=
  let (sign, digits) : Int × List Char :=
    match s.toList with
    | '-' :: digits => (-1, digits)
    | '+' :: digits => (1, digits)
    | digits => (1, digits)
  if digits = [] ∨ ¬ digits.all Char.isDigit then none
  else
    let value := sign * (Nat.ofDigitChars 10 digits 0 : Int)
    if -(2 ^ 63) ≤ value ∧ value < 2 ^ 63 then some value else none

/-! ## Errors -/

/-- A Go error value over the sentinel errors `S` of a package: a plain `errors.New` text, a
sentinel itself, or a sentinel wrapped by `fmt.Errorf("%w: detail", sentinel)`. `diverges` is no
value: it stands for a call that never returns, which therefore commits nothing. -/
inductive GoError (S : Type) where
  | text (msg : String)
  | sentinel (s : S)
  | wrap (s : S) (detail : String)
  | diverges
  deriving DecidableEq

/-- `errors.Is(e, s)`. -/
def GoError.is {S : Type} [DecidableEq S] (e : GoError S) (s : S) : Bool :=
  match e with
  | .text _ => false
  | .diverges => false
  | .sentinel s' => s' = s
  | .wrap s' _ => s' = s

/-- `e.Error()`, given the texts of the package's sentinels. -/
def GoError.message {S : Type} (texts : S → String) : GoError S → String
  | .text msg => msg
  | .diverges => ""
  | .sentinel s => texts s
  | .wrap s detail => texts s ++ ": " ++ detail

/-! ## Fallible functions -/

section Except

variable {ε α β : Type}

/-- `if c { return e }`. -/
def failIf (c : Prop) [Decidable c] (e : ε) : Except ε Unit :=
  if c then .error e else .ok ()

variable {e : ε} {x : Except ε α} {f : α → Except ε β}

/-- A guard passes exactly when its condition is false. -/
@[simp] theorem failIf_eq_ok {c : Prop} [Decidable c] {u : Unit} : failIf c e = .ok u ↔ ¬ c := by
  unfold failIf
  split <;> simp_all

/-- A sequence succeeds exactly when its first part does and the rest does from its value. -/
theorem bind_eq_ok {b : β} : (x >>= f) = .ok b ↔ ∃ a, x = .ok a ∧ f a = .ok b := by
  cases x <;> simp [bind, Except.bind]

/-- A sequence succeeds with some value exactly when its first part does and the rest does. -/
theorem exists_bind_eq_ok : (∃ b, (x >>= f) = .ok b) ↔ ∃ a, x = .ok a ∧ ∃ b, f a = .ok b := by
  cases x <;> simp [bind, Except.bind]

/-- A sequence fails exactly when its first part does, or the rest does from its value. -/
theorem bind_eq_error : (x >>= f) = .error e ↔ x = .error e ∨ ∃ a, x = .ok a ∧ f a = .error e := by
  cases x <;> simp [bind, Except.bind]

/-- A guard fails exactly when its condition is true, with its own error. -/
theorem failIf_eq_error {c : Prop} [Decidable c] {e' : ε} :
    failIf c e = .error e' ↔ c ∧ e = e' := by
  unfold failIf
  split <;> simp_all

/-- A result that holds a value is a success. -/
theorem eq_ok_of_toOption {a : α} (h : x.toOption = some a) : x = .ok a := by
  cases x with
  | error e => cases h
  | ok b => cases h; rfl

theorem mem_toOption {a : α} : a ∈ x.toOption ↔ x = .ok a := by
  cases x with
  | error e => exact ⟨fun h => (nomatch h), fun h => (nomatch h)⟩
  | ok b => exact ⟨fun h => congrArg _ (Option.some.inj h), fun h => congrArg _ (Except.ok.inj h)⟩

/-- Reading back a successful `return`. -/
theorem pure_eq_ok {a b : α} : (pure a : Except ε α) = .ok b ↔ a = b := by
  simp [pure, Except.pure]

/-- The simp set of a sequence of guards and computations that succeeds. -/
theorem ok_iff :
    (∀ {ε α β : Type} {x : Except ε α} {f : α → Except ε β} {b : β},
      (x >>= f) = .ok b ↔ ∃ a, x = .ok a ∧ f a = .ok b) ∧
    (∀ {ε : Type} {e : ε} {c : Prop} [Decidable c] {u : Unit}, failIf c e = .ok u ↔ ¬ c) ∧
    (∀ {ε α : Type} {a b : α}, (pure a : Except ε α) = .ok b ↔ a = b) ∧ ∀ {p : Prop}, (∃ _ : Unit, p) ↔ p :=
  ⟨bind_eq_ok, failIf_eq_ok, pure_eq_ok, exists_const _⟩

/-- A guard before a sequence. -/
theorem failIf_bind_eq_ok {c : Prop} [Decidable c] {f : Unit → Except ε β} {b : β} :
    (failIf c e >>= f) = .ok b ↔ ¬ c ∧ f () = .ok b := by
  rw [bind_eq_ok]
  constructor
  · rintro ⟨⟨⟩, hc, hf⟩; exact ⟨failIf_eq_ok.mp hc, hf⟩
  · rintro ⟨hc, hf⟩; exact ⟨(), failIf_eq_ok.mpr hc, hf⟩

/-- `return` never fails. -/
theorem pure_ne_error {a : α} : (pure a : Except ε α) = .error e ↔ False := by
  simp [pure, Except.pure]

/-- `throw` never succeeds. -/
theorem throw_ne_ok {a : α} : (throw e : Except ε α) = .ok a ↔ False := by
  simp

/-- `throw` fails with its argument. -/
theorem throw_eq_error {e' : ε} : (throw e : Except ε α) = .error e' ↔ e = e' := by
  simp [throw, throwThe, MonadExceptOf.throw]

end Except

end Prox
