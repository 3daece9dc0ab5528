import Mathlib.Data.List.Basic
import Mathlib.Data.List.Induction

namespace Text

variable {α : Type*} [DecidableEq α]

def splitFirst (sep : α) : List α → Option (List α × List α)
  | [] => none
  | c :: cs => if c = sep then some ([], cs) else (splitFirst sep cs).map fun p ↦ (c :: p.1, p.2)

def splitLast (sep : α) (s : List α) : Option (List α × List α) :=
  (splitFirst sep s.reverse).map fun p ↦ (p.2.reverse, p.1.reverse)

def dropPrefix : List α → List α → Option (List α)
  | [], s => some s
  | _ :: _, [] => none
  | a :: p, c :: s => if a = c then dropPrefix p s else none

theorem splitFirst_append {sep : α} {l : List α} (h : sep ∉ l) (r : List α) :
    splitFirst sep (l ++ sep :: r) = some (l, r) := by
  induction l with
  | nil => simp [splitFirst]
  | cons c cs ih =>
    obtain ⟨hc, hcs⟩ := not_or.mp (mt List.mem_cons.mpr h)
    simp [splitFirst, Ne.symm hc, ih hcs]

theorem splitFirst_eq_none {sep : α} {s : List α} (h : sep ∉ s) : splitFirst sep s = none := by
  induction s with
  | nil => rfl
  | cons c cs ih =>
    obtain ⟨hc, hcs⟩ := not_or.mp (mt List.mem_cons.mpr h)
    simp [splitFirst, Ne.symm hc, ih hcs]

theorem splitFirst_eq_some {sep : α} {s l r : List α} (h : splitFirst sep s = some (l, r)) :
    s = l ++ sep :: r ∧ sep ∉ l := by
  induction s generalizing l with
  | nil => cases h
  | cons c cs ih =>
    unfold splitFirst at h
    split_ifs at h with hc
    · cases h
      exact ⟨by rw [hc, List.nil_append], List.not_mem_nil⟩
    · obtain ⟨⟨l', r'⟩, hp, he⟩ := Option.map_eq_some_iff.mp h
      cases he
      obtain ⟨hs, hl⟩ := ih hp
      refine ⟨by rw [hs, List.cons_append], ?_⟩
      rw [List.mem_cons, not_or]
      exact ⟨Ne.symm hc, hl⟩

theorem splitLast_append {sep : α} {r : List α} (h : sep ∉ r) (l : List α) :
    splitLast sep (l ++ sep :: r) = some (l, r) := by
  have hr : (l ++ sep :: r).reverse = r.reverse ++ sep :: l.reverse := by simp
  rw [splitLast, hr, splitFirst_append (by simpa only [List.mem_reverse] using h)]
  simp only [Option.map_some, List.reverse_reverse]

theorem splitLast_eq_some {sep : α} {s l r : List α} (h : splitLast sep s = some (l, r)) :
    s = l ++ sep :: r ∧ sep ∉ r := by
  obtain ⟨⟨l', r'⟩, hs, he⟩ := Option.map_eq_some_iff.mp h
  cases he
  obtain ⟨hrev, hl⟩ := splitFirst_eq_some hs
  refine ⟨?_, by rwa [List.mem_reverse]⟩
  rw [← List.reverse_reverse s, hrev]
  simp

/-- A text has one reading as a prefix, a separator and a separator-free rest. -/
theorem append_separator_inj {sep : α} {l l' r r' : List α} (hr : sep ∉ r) (hr' : sep ∉ r')
    (h : l ++ sep :: r = l' ++ sep :: r') : l = l' ∧ r = r' := by
  have hs := splitLast_append hr l
  rw [h, splitLast_append hr' l'] at hs
  simpa only [Option.some.injEq, Prod.mk.injEq, eq_comm] using hs

theorem separator_append_inj {sep : α} {l l' r r' : List α} (hl : sep ∉ l) (hl' : sep ∉ l')
    (h : l ++ sep :: r = l' ++ sep :: r') : l = l' ∧ r = r' := by
  have hs := splitFirst_append hl r
  rw [h, splitFirst_append hl' r'] at hs
  simpa only [Option.some.injEq, Prod.mk.injEq, eq_comm] using hs

@[simp] theorem dropPrefix_append (p s : List α) : dropPrefix p (p ++ s) = some s := by
  induction p with
  | nil => cases s <;> rfl
  | cons a p ih => simpa [dropPrefix] using ih

theorem dropPrefix_eq_some {p s r : List α} (h : dropPrefix p s = some r) : s = p ++ r := by
  fun_induction dropPrefix p s with
  | case1 => cases h; rfl
  | case2 => cases h
  | case3 a p s ih => rw [ih h]; rfl
  | case4 => cases h

def digits (cs : List Char) : Option Nat :=
  if cs ≠ [] ∧ cs.all Char.isDigit then some (Nat.ofDigitChars 10 cs 0) else none

def unsigned : List Char → Option Nat
  | '+' :: cs => digits cs
  | cs => digits cs

def signed : List Char → Option Int
  | '-' :: cs => (digits cs).map fun n : Nat ↦ -(n : Int)
  | '+' :: cs => (digits cs).map fun n : Nat ↦ (n : Int)
  | cs => (digits cs).map fun n : Nat ↦ (n : Int)

theorem isDigit_of_digits {cs : List Char} {n : Nat} (h : digits cs = some n) {c : Char}
    (hc : c ∈ cs) : c.isDigit = true := by
  unfold digits at h
  split_ifs at h with hd
  exact List.all_eq_true.mp hd.2 c hc

theorem char_of_unsigned {cs : List Char} {n : Nat} (h : unsigned cs = some n) {c : Char}
    (hc : c ∈ cs) : c = '+' ∨ c.isDigit = true := by
  unfold unsigned at h
  split at h
  · exact (List.mem_cons.mp hc).imp id (isDigit_of_digits h)
  · exact .inr (isDigit_of_digits h hc)

theorem isDigit_of_mem_toString {c : Char} {n : Nat} (h : c ∈ (toString n).toList) :
    c.isDigit = true := by
  rw [Nat.toString_eq_repr, Nat.toList_repr] at h
  exact Nat.isDigit_of_mem_toDigits (by decide) (by decide) h

theorem toNat_of_isDigit {c : Char} (h : c.isDigit = true) : 48 ≤ c.toNat ∧ c.toNat < 58 := by
  obtain ⟨h0, h9⟩ := Char.isDigit_iff_toNat.mp h
  exact ⟨h0, Nat.lt_succ_of_le h9⟩

theorem digitChar_of_isDigit {c : Char} (h : c.isDigit = true) :
    Nat.digitChar (c.toNat - '0'.toNat) = c := by
  obtain ⟨h0, h9⟩ := toNat_of_isDigit h
  have hval : ∀ d < 10, Nat.digitChar d = Char.ofNat (48 + d) := by decide
  change Nat.digitChar (c.toNat - 48) = c
  rw [hval _ (by omega), Nat.add_sub_cancel' h0, Char.ofNat_toNat]

theorem eq_replicate_zero_append {cs : List Char} (hne : cs ≠ []) (hd : cs.all Char.isDigit = true) :
    ∃ k, cs = List.replicate k '0' ++ Nat.toDigits 10 (Nat.ofDigitChars 10 cs 0) := by
  induction cs using List.reverseRecOn with
  | nil => exact (hne rfl).elim
  | append_singleton cs c ih =>
    rw [List.all_append, Bool.and_eq_true, List.all_cons, List.all_nil, Bool.and_true] at hd
    have hc := digitChar_of_isDigit hd.2
    have hlt : c.toNat - '0'.toNat < 10 := by
      obtain ⟨h0, h9⟩ := toNat_of_isDigit hd.2
      change c.toNat - 48 < 10
      omega
    rw [Nat.ofDigitChars_append, Nat.ofDigitChars_cons, Nat.ofDigitChars_nil]
    by_cases hcs : cs = []
    · refine ⟨0, ?_⟩
      rw [hcs, Nat.ofDigitChars_nil, Nat.mul_zero, Nat.zero_add, Nat.toDigits_of_lt_base hlt, hc]
      rfl
    · obtain ⟨k, hk⟩ := ih hcs hd.1
      rcases Nat.eq_zero_or_pos (Nat.ofDigitChars 10 cs 0) with hm | hm
      · refine ⟨k + 1, ?_⟩
        rw [hm] at hk ⊢
        rw [Nat.mul_zero, Nat.zero_add, Nat.toDigits_of_lt_base hlt, hc, hk,
          List.replicate_succ', Nat.toDigits_zero]
      · refine ⟨k, ?_⟩
        rw [← Nat.toDigits_append_toDigits (by decide) hm hlt, Nat.toDigits_of_lt_base hlt, hc,
          ← List.append_assoc, ← hk]

theorem digits_eq_some_iff {cs : List Char} {n : Nat} :
    digits cs = some n ↔ ∃ k, cs = List.replicate k '0' ++ (toString n).toList := by
  rw [Nat.toString_eq_repr, Nat.toList_repr]
  constructor
  · intro h
    unfold digits at h
    split_ifs at h with hd
    cases h
    exact eq_replicate_zero_append hd.1 hd.2
  · rintro ⟨k, rfl⟩
    have hall : (List.replicate k '0' ++ Nat.toDigits 10 n).all Char.isDigit = true := by
      refine List.all_eq_true.mpr fun c hc ↦ ?_
      rcases List.mem_append.mp hc with hc | hc
      · rw [List.eq_of_mem_replicate hc]
        rfl
      · exact Nat.isDigit_of_mem_toDigits (by decide) (by decide) hc
    have hne : List.replicate k '0' ++ Nat.toDigits 10 n ≠ [] := by simp
    rw [digits, if_pos ⟨hne, hall⟩, Nat.ofDigitChars_append, Nat.ofDigitChars_replicate_zero,
      Nat.mul_zero, Nat.ofDigitChars_ten_toDigits]

theorem digits_toString (n : Nat) : digits (toString n).toList = some n :=
  digits_eq_some_iff.mpr ⟨0, rfl⟩

theorem unsigned_of_head {c : Char} {cs : List Char} (h : c ≠ '+') :
    unsigned (c :: cs) = digits (c :: cs) := by
  unfold unsigned
  split
  · rename_i he
    exact absurd (List.cons.inj he).1 h
  · rfl

theorem signed_of_head {c : Char} {cs : List Char} (h : c ≠ '+') (h' : c ≠ '-') :
    signed (c :: cs) = (digits (c :: cs)).map fun n : Nat ↦ (n : Int) := by
  unfold signed
  split
  · rename_i he
    exact absurd (List.cons.inj he).1 h'
  · rename_i he
    exact absurd (List.cons.inj he).1 h
  · rfl

/-- A numeral is the printed number, possibly after a plus sign and zeros. -/
theorem unsigned_eq_some_iff {s : List Char} {n : Nat} :
    unsigned s = some n ↔ ∃ sign k, (sign = [] ∨ sign = ['+']) ∧
      s = sign ++ List.replicate k '0' ++ (toString n).toList := by
  constructor
  · intro h
    unfold unsigned at h
    split at h
    · obtain ⟨k, rfl⟩ := digits_eq_some_iff.mp h
      exact ⟨['+'], k, .inr rfl, rfl⟩
    · obtain ⟨k, rfl⟩ := digits_eq_some_iff.mp h
      exact ⟨[], k, .inl rfl, rfl⟩
  · rintro ⟨sign, k, rfl | rfl, rfl⟩
    · have hd : digits (List.replicate k '0' ++ (toString n).toList) = some n :=
        digits_eq_some_iff.mpr ⟨k, rfl⟩
      rw [List.nil_append]
      cases h : List.replicate k '0' ++ (toString n).toList with
      | nil => rw [h] at hd; cases hd
      | cons c cs =>
        have hc := isDigit_of_digits hd (h ▸ List.mem_cons_self)
        rw [unsigned_of_head (fun he ↦ absurd (he ▸ hc) (by decide)), ← h, hd]
    · exact digits_eq_some_iff.mpr ⟨k, rfl⟩

theorem unsigned_toString (n : Nat) : unsigned (toString n).toList = some n :=
  unsigned_eq_some_iff.mpr ⟨[], 0, .inl rfl, rfl⟩

theorem toString_negSucc (n : Nat) : toString (Int.negSucc n) = "-" ++ toString (n + 1) := rfl

theorem signed_toString (i : Int) : signed (toString i).toList = some i := by
  cases i with
  | ofNat n =>
    have hd := digits_toString n
    have he : toString (Int.ofNat n) = toString n := rfl
    rw [he]
    cases h : (toString n).toList with
    | nil => rw [h] at hd; cases hd
    | cons c cs =>
      have hc : c.isDigit = true := isDigit_of_mem_toString (by rw [h]; exact List.mem_cons_self)
      rw [signed_of_head (fun he ↦ absurd (he ▸ hc) (by decide))
        (fun he ↦ absurd (he ▸ hc) (by decide)), ← h, hd]
      rfl
  | negSucc n =>
    have hl : (toString (Int.negSucc n)).toList = '-' :: (toString (n + 1)).toList := by
      rw [toString_negSucc, String.toList_append]
      rfl
    rw [hl]
    simp only [signed, digits_toString]
    rfl

theorem mem_toString_int {c : Char} {i : Int} (h : c ∈ (toString i).toList) :
    c = '-' ∨ c.isDigit = true := by
  cases i with
  | ofNat n => exact Or.inr (isDigit_of_mem_toString (n := n) h)
  | negSucc n =>
    rw [toString_negSucc, String.toList_append, List.mem_append] at h
    rcases h with h | h
    · exact Or.inl (by simpa using h)
    · exact Or.inr (isDigit_of_mem_toString h)

theorem toString_nat_inj {m n : Nat} (h : toString m = toString n) : m = n := by
  have hm := digits_toString m
  rw [h, digits_toString n] at hm
  exact (Option.some.inj hm).symm

theorem toString_int_inj {i j : Int} (h : toString i = toString j) : i = j := by
  have hi := signed_toString i
  rw [h, signed_toString j] at hi
  exact (Option.some.inj hi).symm

end Text
