import WireDock.Domain.Hex

namespace WireDock.Hex

def pairValue (hi lo : Char) : Option UInt8 :=
  (toDigit hi).bind fun h ↦ (toDigit lo).map fun l ↦ UInt8.ofNat (16 * h + l)

def decode : List Char → Option (List UInt8)
  | [] => some []
  | [_] => none
  | hi :: lo :: digits => (pairValue hi lo).bind fun b ↦ (decode digits).map (b :: ·)

theorem decode_cons_cons {hi lo : Char} {digits : List Char} {bytes : List UInt8}
    (h : decode (hi :: lo :: digits) = some bytes) :
    ∃ d d' rest, toDigit hi = some d ∧ toDigit lo = some d' ∧ decode digits = some rest ∧
      bytes = UInt8.ofNat (16 * d + d') :: rest := by
  obtain ⟨b, hb, h⟩ := Option.bind_eq_some_iff.mp h
  obtain ⟨rest, hrest, rfl⟩ := Option.map_eq_some_iff.mp h
  obtain ⟨d, hd, hl⟩ := Option.bind_eq_some_iff.mp hb
  obtain ⟨d', hd', rfl⟩ := Option.map_eq_some_iff.mp hl
  exact ⟨d, d', rest, hd, hd', hrest, rfl⟩

theorem eq_nil_of_decode {s : List Char} (h : decode s = some []) : s = [] := by
  fun_cases decode s with
  | case1 => rfl
  | case2 => cases h
  | case3 hi lo digits =>
    obtain ⟨d, d', rest, -, -, -, hbytes⟩ := decode_cons_cons h
    cases hbytes

theorem toDigit_eq_some_iff {c : Char} :
    isAsciiHexdigit c = true ↔ ∃ d, toDigit c = some d := by
  unfold isAsciiHexdigit toDigit
  split_ifs <;> simp_all

theorem toDigit_cases {c : Char} {d : Nat} (h : toDigit c = some d) :
    (48 ≤ c.toNat ∧ c.toNat ≤ 57 ∧ d = c.toNat - 48) ∨
      (97 ≤ c.toNat ∧ c.toNat ≤ 102 ∧ d = c.toNat - 97 + 10) ∨
      (65 ≤ c.toNat ∧ c.toNat ≤ 70 ∧ d = c.toNat - 65 + 10) := by
  unfold toDigit at h
  split_ifs at h with h₁ h₂ h₃ <;> cases h
  · obtain ⟨h0, h9⟩ := Char.isDigit_iff_toNat.mp h₁
    exact .inl ⟨h0, h9, rfl⟩
  · obtain ⟨ha, hf⟩ := (Bool.and_eq_true _ _).mp h₂
    exact .inr (.inl ⟨of_decide_eq_true ha, of_decide_eq_true hf, rfl⟩)
  · obtain ⟨ha, hf⟩ := (Bool.and_eq_true _ _).mp h₃
    exact .inr (.inr ⟨of_decide_eq_true ha, of_decide_eq_true hf, rfl⟩)

theorem toDigit_lt {c : Char} {d : Nat} (h : toDigit c = some d) : d < 16 := by
  rcases toDigit_cases h with h | h | h <;> omega

theorem utf8Size_of_digit {c : Char} {d : Nat} (h : toDigit c = some d) : c.utf8Size = 1 := by
  rw [Char.utf8Size_eq_one_iff, UInt32.le_iff_toNat_le]
  have hlt : c.toNat ≤ 127 := by rcases toDigit_cases h with h | h | h <;> omega
  exact hlt

theorem fromUTF8?_pair {hi lo : Char} (hhi : hi.utf8Size = 1) (hlo : lo.utf8Size = 1) :
    String.fromUTF8? ⟨#[hi.val.toUInt8, lo.val.toUInt8]⟩ = some (String.ofList [hi, lo]) := by
  have hbytes : [hi, lo].utf8Encode = ⟨#[hi.val.toUInt8, lo.val.toUInt8]⟩ := by
    simp only [List.utf8Encode, List.flatMap_cons, String.utf8EncodeChar_eq_singleton hhi,
      String.utf8EncodeChar_eq_singleton hlo]
    rfl
  rw [String.fromUTF8?, dif_pos (hbytes ▸ .intro _ rfl), Option.some.injEq,
    ← String.toByteArray_inj]
  exact hbytes.symm

theorem fromStrRadix16_pair {hi lo : Char} {h l : Nat} (hh : toDigit hi = some h)
    (hl : toDigit lo = some l) : fromStrRadix16 [hi, lo] = .ok (UInt8.ofNat (16 * h + l)) := by
  have hplus : hi ≠ '+' := by rintro rfl; cases hh
  have hlt := toDigit_lt hh
  have hlt' := toDigit_lt hl
  have hr : radixDigits 0 [hi, lo] = .ok (UInt8.ofNat (16 * h + l)) := by
    simp only [radixDigits, hh, hl]
    rw [if_pos (by omega), if_pos (by omega)]
    simp
  unfold fromStrRadix16
  split
  · rename_i he; cases he
  · rename_i he; cases he
  · rename_i he; cases he
  · rename_i he
    exact absurd (List.cons.inj he).1 hplus
  · exact hr

/-- The loop over byte pairs reads what the digits stand for. -/
theorem parsePairs_eq (s : List Char) (hs : ∀ c ∈ s, isAsciiHexdigit c = true)
    (heven : s.length % 2 = 0) :
    ∃ bytes, decode s = some bytes ∧ parsePairs (s.flatMap String.utf8EncodeChar) = .ok bytes := by
  fun_induction decode s with
  | case1 => exact ⟨[], rfl, rfl⟩
  | case2 => cases heven
  | case3 hi lo digits ih =>
    obtain ⟨h, hh⟩ := toDigit_eq_some_iff.mp (hs hi (by simp))
    obtain ⟨l, hl⟩ := toDigit_eq_some_iff.mp (hs lo (by simp))
    obtain ⟨bytes, hd, hp⟩ := ih (fun c hc ↦ hs c (by simp [hc])) (by rwa [← Nat.add_mod_right])
    refine ⟨UInt8.ofNat (16 * h + l) :: bytes, by simp [pairValue, hh, hl, hd], ?_⟩
    simp only [List.flatMap_cons, String.utf8EncodeChar_eq_singleton (utf8Size_of_digit hh),
      String.utf8EncodeChar_eq_singleton (utf8Size_of_digit hl), List.singleton_append, parsePairs,
      fromUTF8?_pair (utf8Size_of_digit hh) (utf8Size_of_digit hl), String.toList_ofList,
      fromStrRadix16_pair hh hl, hp]
    rfl

theorem utf8ByteSize_of_digits {s : List Char} (hs : ∀ c ∈ s, isAsciiHexdigit c = true) :
    (String.ofList s).utf8ByteSize = s.length := by
  induction s with
  | nil => rfl
  | cons c cs ih =>
    obtain ⟨d, hd⟩ := toDigit_eq_some_iff.mp (hs c (by simp))
    rw [String.ofList_cons, String.utf8ByteSize_append, String.utf8ByteSize_singleton,
      utf8Size_of_digit hd, ih fun c hc ↦ hs c (by simp [hc]), List.length_cons, Nat.add_comm]

theorem joinDigits_eq (s : List Char) :
    joinDigits s = match s.find? (fun c ↦ !isAsciiHexdigit c) with
      | some c => .error (.invalidHex s!"non-hex character: {debugChar c}")
      | none => .ok s := by
  induction s with
  | nil => rfl
  | cons c cs ih =>
    rw [joinDigits, ih]
    cases hc : isAsciiHexdigit c with
    | true =>
      rw [if_pos rfl, List.find?_cons_of_neg (by rw [hc]; simp)]
      cases cs.find? (fun c ↦ !isAsciiHexdigit c) <;> rfl
    | false =>
      rw [if_neg (by simp), List.find?_cons_of_pos (by rw [hc]; rfl)]

theorem digits_of_decode {s : List Char} {bytes : List UInt8} (h : decode s = some bytes) :
    (∀ c ∈ s, isAsciiHexdigit c = true) ∧ s.length % 2 = 0 := by
  fun_induction decode s generalizing bytes with
  | case1 => exact ⟨fun c hc ↦ (by cases hc), rfl⟩
  | case2 => cases h
  | case3 hi lo digits ih =>
    obtain ⟨d, d', rest, hd, hd', hrest, -⟩ := decode_cons_cons h
    obtain ⟨hs, heven⟩ := ih hrest
    refine ⟨?_, by rwa [List.length_cons, List.length_cons, Nat.add_assoc, Nat.add_mod_right]⟩
    simp only [List.forall_mem_cons]
    exact ⟨toDigit_eq_some_iff.mpr ⟨d, hd⟩, toDigit_eq_some_iff.mpr ⟨d', hd'⟩, hs⟩

/-- What a text is read as: a character that is no digit is the first thing
noticed, then that there is no digit, then that one has no partner. -/
def readDigits (s : List Char) : Except DomainError (List UInt8) :=
  match s.find? (fun c ↦ !isAsciiHexdigit c) with
  | some c => .error (.invalidHex s!"non-hex character: {debugChar c}")
  | none =>
    if s = [] then .error .emptyPayload
    else
      match decode s with
      | some bytes => .ok bytes
      | none => .error (.invalidHex "odd number of hex digits")

theorem parseHexTokens_eq (tokens : List String) :
    parseHexTokens tokens = readDigits (tokens.flatMap String.toList) := by
  unfold parseHexTokens readDigits
  cases tokens with
  | nil => rfl
  | cons t ts =>
    generalize (t :: ts).flatMap String.toList = s
    simp only [List.isEmpty_cons, Bool.false_eq_true, if_false, joinDigits_eq]
    cases hf : s.find? (fun c ↦ !isAsciiHexdigit c) with
    | some c => rfl
    | none =>
      have hs : ∀ c ∈ s, isAsciiHexdigit c = true := by
        simpa using List.find?_eq_none.mp hf
      simp only [List.isEmpty_iff, utf8ByteSize_of_digits hs]
      by_cases hempty : s = []
      · rw [if_pos hempty, if_pos hempty]
      · rw [if_neg hempty, if_neg hempty]
        by_cases heven : s.length % 2 = 0
        · obtain ⟨bytes, hd, hp⟩ := parsePairs_eq s hs heven
          simp only [heven, ne_eq, not_true_eq_false, if_false, hd, hp]
        · have hd : decode s = none := by
            refine Option.eq_none_iff_forall_ne_some.mpr fun bytes hd ↦ ?_
            exact heven (digits_of_decode hd).2
          simp only [ne_eq, heven, not_false_eq_true, if_true, hd]

theorem parseHexTokens_eq_ok_iff {tokens : List String} {bytes : List UInt8} :
    parseHexTokens tokens = .ok bytes ↔
      tokens.flatMap String.toList ≠ [] ∧ decode (tokens.flatMap String.toList) = some bytes := by
  rw [parseHexTokens_eq, readDigits]
  generalize tokens.flatMap String.toList = s
  cases hf : s.find? (fun c ↦ !isAsciiHexdigit c) with
  | some c =>
    -- no text with such a character decodes
    have hc := List.find?_some hf
    simp only [reduceCtorEq, false_iff, not_and]
    intro _ hd
    rw [(digits_of_decode hd).1 c (List.mem_of_find?_eq_some hf)] at hc
    cases hc
  | none =>
    by_cases hempty : s = []
    · simp [hempty]
    · simp only [ne_eq, hempty, if_false, not_false_eq_true, true_and]
      cases decode s <;> simp

def byteDigits (b : UInt8) : List Char := [upperDigit (b.toNat / 16), upperDigit (b.toNat % 16)]

theorem toDigit_upperDigit {n : Nat} (h : n < 16) : toDigit (upperDigit n) = some n := by
  revert n
  decide

theorem pairValue_byteDigits (b : UInt8) :
    pairValue (upperDigit (b.toNat / 16)) (upperDigit (b.toNat % 16)) = some b := by
  have hlt := b.toNat_lt
  rw [pairValue, toDigit_upperDigit (by omega), toDigit_upperDigit (by omega), Option.bind_some,
    Option.map_some, Nat.div_add_mod, UInt8.ofNat_toNat]

theorem decode_byteDigits (bytes : List UInt8) : decode (bytes.flatMap byteDigits) = some bytes := by
  induction bytes with
  | nil => rfl
  | cons b bytes ih =>
    rw [List.flatMap_cons, byteDigits, List.cons_append, List.cons_append, List.nil_append, decode,
      pairValue_byteDigits, Option.bind_some, ih, Option.map_some]

theorem digit_of_mem_byteDigits {b : UInt8} {c : Char} (h : c ∈ byteDigits b) :
    isAsciiHexdigit c = true := by
  have hlt := b.toNat_lt
  simp only [byteDigits, List.mem_cons, List.not_mem_nil, or_false] at h
  rcases h with rfl | rfl <;> exact toDigit_eq_some_iff.mpr ⟨_, toDigit_upperDigit (by omega)⟩

theorem toList_formatByte (b : UInt8) : (formatByte b).toList = byteDigits b :=
  String.toList_ofList

theorem toList_formatHexSpaced (bytes : List UInt8) :
    (formatHexSpaced bytes).toList = [' '].intercalate (bytes.map byteDigits) := by
  have hdigits : String.toList ∘ formatByte = byteDigits := funext toList_formatByte
  rw [formatHexSpaced, String.toList_intercalate, List.map_map, hdigits]
  rfl

theorem filter_formatHexSpaced (bytes : List UInt8) :
    (formatHexSpaced bytes).toList.filter (· ≠ ' ') = bytes.flatMap byteDigits := by
  have hkeep : ∀ b, (byteDigits b).filter (· ≠ ' ') = byteDigits b := by
    intro b
    rw [List.filter_eq_self]
    intro c hc
    refine decide_eq_true fun he ↦ ?_
    have hd := digit_of_mem_byteDigits hc
    rw [he] at hd
    cases hd
  rw [toList_formatHexSpaced]
  induction bytes with
  | nil => rfl
  | cons b bytes ih =>
    cases bytes with
    | nil => simpa using hkeep b
    | cons b' bytes =>
      rw [List.map_cons, List.map_cons, List.intercalate_cons_cons, ← List.map_cons,
        List.filter_append, List.filter_append, hkeep, ih]
      rfl

end WireDock.Hex
