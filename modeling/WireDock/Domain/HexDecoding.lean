import WireDock.Domain.HexPairs

namespace WireDock.Hex

/-- The digits of a text, two at a time, are its bytes. -/
theorem decode_getElem? {s : List Char} {bytes : List UInt8} (h : decode s = some bytes) :
    2 * bytes.length = s.length ∧ ∀ i < s.length / 2, ∃ hi lo d d' b,
      s[2 * i]? = some hi ∧ s[2 * i + 1]? = some lo ∧ toDigit hi = some d ∧
        toDigit lo = some d' ∧ bytes[i]? = some b ∧ b.toNat = 16 * d + d' := by
  fun_induction decode s generalizing bytes with
  | case1 =>
    cases h
    exact ⟨rfl, fun i hi ↦ by simp at hi⟩
  | case2 => cases h
  | case3 hi lo digits ih =>
    obtain ⟨d, d', rest, hd, hd', hrest, rfl⟩ := decode_cons_cons h
    obtain ⟨hlength, hpairs⟩ := ih hrest
    have hvalue : (UInt8.ofNat (16 * d + d')).toNat = 16 * d + d' := by
      have hlt := toDigit_lt hd
      have hlt' := toDigit_lt hd'
      rw [UInt8.toNat_ofNat', Nat.mod_eq_of_lt (by omega)]
    refine ⟨by simp only [List.length_cons]; omega, fun i hlt ↦ ?_⟩
    cases i with
    | zero => exact ⟨hi, lo, d, d', _, rfl, rfl, hd, hd', rfl, hvalue⟩
    | succ i =>
      simp only [List.length_cons] at hlt
      exact hpairs i (by omega)

theorem upperDigit_of_toDigit {c : Char} {d : Nat} (h : toDigit c = some d) :
    upperDigit d = c.toUpper := by
  have hall : ∀ n < 128, (toDigit (Char.ofNat n)).all
      (fun d ↦ upperDigit d = (Char.ofNat n).toUpper) = true := by decide
  have hlt : c.toNat < 128 := by rcases toDigit_cases h with h | h | h <;> omega
  have hc := hall c.toNat hlt
  rw [Char.ofNat_toNat, h] at hc
  exact of_decide_eq_true hc

theorem byteDigits_of_decode {s : List Char} {bytes : List UInt8} (h : decode s = some bytes) :
    bytes.flatMap byteDigits = s.map Char.toUpper := by
  fun_induction decode s generalizing bytes with
  | case1 =>
    cases h
    rfl
  | case2 => cases h
  | case3 hi lo digits ih =>
    obtain ⟨d, d', rest, hd, hd', hrest, rfl⟩ := decode_cons_cons h
    have hlt := toDigit_lt hd
    have hlt' := toDigit_lt hd'
    have hdigits : byteDigits (UInt8.ofNat (16 * d + d')) = [hi.toUpper, lo.toUpper] := by
      rw [byteDigits, UInt8.toNat_ofNat', Nat.mod_eq_of_lt (by omega),
        show (16 * d + d') / 16 = d by omega, show (16 * d + d') % 16 = d' by omega,
        upperDigit_of_toDigit hd, upperDigit_of_toDigit hd']
    rw [List.flatMap_cons, hdigits, ih hrest]
    rfl

inductive Reading (s : List Char) : Except DomainError (List UInt8) → Prop
  | nonHex {c : Char} (hc : c ∈ s) (hx : isAsciiHexdigit c = false) :
      Reading s (.error (.invalidHex s!"non-hex character: {debugChar c}"))
  | empty (hs : s = []) : Reading s (.error .emptyPayload)
  | odd (hodd : s.length % 2 = 1) : Reading s (.error (.invalidHex "odd number of hex digits"))
  | bytes {bytes : List UInt8} (hne : s ≠ []) (hd : decode s = some bytes) :
      Reading s (.ok bytes)

theorem reading_readDigits (s : List Char) : Reading s (readDigits s) := by
  unfold readDigits
  cases hf : s.find? (fun c ↦ !isAsciiHexdigit c) with
  | some c => exact .nonHex (List.mem_of_find?_eq_some hf) (by simpa using List.find?_some hf)
  | none =>
    have hs : ∀ c ∈ s, isAsciiHexdigit c = true := by simpa using List.find?_eq_none.mp hf
    by_cases hempty : s = []
    · rw [if_pos hempty]
      exact .empty hempty
    · rw [if_neg hempty]
      cases hd : decode s with
      | some bytes => exact .bytes hempty hd
      | none =>
        refine .odd ((Nat.mod_two_eq_zero_or_one _).resolve_left fun heven ↦ ?_)
        obtain ⟨bytes, hb, -⟩ := parsePairs_eq s hs heven
        cases hd.symm.trans hb

/-- What reading a text of hex digits gives: bytes, or the error that fits. -/
structure ReadsHex (s : List Char) (read : Except DomainError (List UInt8)) : Prop where
  ok_iff : (∃ bytes, read = .ok bytes) ↔
    s ≠ [] ∧ (∀ c ∈ s, isAsciiHexdigit c = true) ∧ s.length % 2 = 0
  bytes : ∀ bytes, read = .ok bytes → 2 * bytes.length = s.length ∧
    ∀ i < s.length / 2, ∃ hi lo d d' b, s[2 * i]? = some hi ∧ s[2 * i + 1]? = some lo ∧
      toDigit hi = some d ∧ toDigit lo = some d' ∧ bytes[i]? = some b ∧ b.toNat = 16 * d + d'
  empty_iff : read = .error .emptyPayload ↔ s = []
  invalid : ∀ e, read = .error e → s ≠ [] → e = .invalidHex "odd number of hex digits" ∨
    ∃ c ∈ s, isAsciiHexdigit c = false ∧ e = .invalidHex s!"non-hex character: {debugChar c}"
  printed : ∀ bytes, read = .ok bytes →
    (formatHexSpaced bytes).toList.filter (· ≠ ' ') = s.map Char.toUpper

theorem Reading.readsHex {s : List Char} {read : Except DomainError (List UInt8)}
    (h : Reading s read) : ReadsHex s read := by
  cases h with
  | @nonHex c hc hx =>
    refine ⟨⟨fun ⟨_, he⟩ ↦ (by cases he), fun ⟨_, hs, _⟩ ↦ ?_⟩, fun _ he ↦ (by cases he),
      ⟨fun he ↦ (by cases he), fun he ↦ ?_⟩, fun e he _ ↦ ?_, fun _ he ↦ (by cases he)⟩
    · cases hx.symm.trans (hs c hc)
    · rw [he] at hc
      cases hc
    · cases he
      exact .inr ⟨c, hc, hx, rfl⟩
  | empty hs =>
    exact ⟨⟨fun ⟨_, he⟩ ↦ (by cases he), fun ⟨hne, _⟩ ↦ (hne hs).elim⟩, fun _ he ↦ (by cases he),
      ⟨fun _ ↦ hs, fun _ ↦ rfl⟩, fun _ _ hne ↦ (hne hs).elim, fun _ he ↦ (by cases he)⟩
  | odd hodd =>
    refine ⟨⟨fun ⟨_, he⟩ ↦ (by cases he), fun ⟨_, _, heven⟩ ↦ ?_⟩, fun _ he ↦ (by cases he),
      ⟨fun he ↦ (by cases he), fun he ↦ ?_⟩, fun e he _ ↦ ?_, fun _ he ↦ (by cases he)⟩
    · omega
    · rw [he] at hodd
      cases hodd
    · cases he
      exact .inl rfl
  | @bytes bytes hne hd =>
    refine ⟨⟨fun _ ↦ ⟨hne, digits_of_decode hd⟩, fun _ ↦ ⟨bytes, rfl⟩⟩, fun _ he ↦ ?_,
      ⟨fun he ↦ (by cases he), fun hs ↦ (hne hs).elim⟩, fun _ he ↦ (by cases he), fun _ he ↦ ?_⟩
    · cases he
      exact decode_getElem? hd
    · cases he
      rw [filter_formatHexSpaced, byteDigits_of_decode hd]

def spaceTokens (text : String) : List String := (text.toList.splitOn ' ').map String.ofList

theorem spaceTokens_formatHexSpaced {bytes : List UInt8} (hne : bytes ≠ []) :
    spaceTokens (formatHexSpaced bytes) = bytes.map formatByte := by
  have hspace : ∀ l ∈ bytes.map byteDigits, ' ' ∉ l := by
    intro l hl hc
    obtain ⟨b, -, rfl⟩ := List.mem_map.mp hl
    cases digit_of_mem_byteDigits hc
  rw [spaceTokens, toList_formatHexSpaced, List.splitOn_intercalate ' ' hspace (by simpa using hne),
    List.map_map]
  rfl

theorem flatMap_formatByte (bytes : List UInt8) :
    (bytes.map formatByte).flatMap String.toList = bytes.flatMap byteDigits := by
  rw [List.flatMap_map]
  exact congrArg (bytes.flatMap ·) (funext toList_formatByte)

theorem parseHexTokens_formatByte {bytes : List UInt8} (hne : bytes ≠ []) :
    parseHexTokens (bytes.map formatByte) = .ok bytes := by
  rw [parseHexTokens_eq_ok_iff, flatMap_formatByte]
  refine ⟨?_, decode_byteDigits bytes⟩
  obtain ⟨b, rest, rfl⟩ := List.exists_cons_of_ne_nil hne
  exact List.cons_ne_nil _ _

/-- The reader of hex tokens decodes their concatenation, however it is cut,
and reads back what the formatter prints. -/
theorem hex_tokens_decoded :
    (∀ tokens, ReadsHex (tokens.flatMap String.toList) (parseHexTokens tokens)) ∧
      (∀ tokens tokens', tokens.flatMap String.toList = tokens'.flatMap String.toList →
        parseHexTokens tokens = parseHexTokens tokens') ∧
      ∀ bytes ≠ [], parseHexTokens (spaceTokens (formatHexSpaced bytes)) = .ok bytes := by
  refine ⟨fun tokens ↦ ?_, fun tokens tokens' h ↦ ?_, fun bytes hne ↦ ?_⟩
  · rw [parseHexTokens_eq]
    exact (reading_readDigits _).readsHex
  · rw [parseHexTokens_eq, parseHexTokens_eq, h]
  · rw [spaceTokens_formatHexSpaced hne]
    exact parseHexTokens_formatByte hne

theorem hex_tokens_decoded_cut :
    parseHexTokens ["4", "93f"] = parseHexTokens ["493", "f"] ∧
      parseHexTokens (spaceTokens (formatHexSpaced [0x49, 0x3F])) = .ok [0x49, 0x3F] :=
  ⟨hex_tokens_decoded.2.1 _ _ (by decide), hex_tokens_decoded.2.2 _ (by decide)⟩

end WireDock.Hex
