import WireDock.Repl.Parser
import WireDock.Domain.HexPairs

namespace WireDock

def Decimal (n : UInt16) (s : String) : Prop := s = toString n

def Padded (n : UInt16) (s : String) : Prop :=
  ∃ sign k, (sign = [] ∨ sign = ['+']) ∧
    s.toList = sign ++ List.replicate k '0' ++ (toString n).toList

section Grammar

variable (numeral : UInt16 → String → Prop)

inductive Remote (host : String) (port : UInt16) : String → Prop
  | plain {p : String} (hhost : ∀ rest, host.toList ≠ '[' :: rest) (hp : numeral port p) :
      Remote host port s!"{host}:{p}"
  | bracketed {p : String} (hhost : ']' ∉ host.toList) (hp : numeral port p) :
      Remote host port s!"[{host}]:{p}"

/-- The documented commands, as the tokens they are typed with. -/
inductive Spelling : Command → List String → Prop
  | openTcpServer {port : UInt16} {p : String} (hp : numeral port p) :
      Spelling (.openTcpServer port) ["open", "server", p]
  | openIpcServer (path : PathBuf) : Spelling (.openIpcServer path) ["open", "ipc", "server", path]
  | openTcpClient {localPort remotePort : UInt16} {remoteHost l r : String}
      (hl : numeral localPort l) (hr : Remote numeral remoteHost remotePort r) :
      Spelling (.openTcpClient localPort remoteHost remotePort) ["open", "client", l, r]
  | openIpcClient (remotePath : PathBuf) :
      Spelling (.openIpcClient remotePath) ["open", "ipc", "client", remotePath]
  | close (idToken : String) : Spelling (.close idToken) ["close", idToken]
  | send {idToken : String} {bytes : List UInt8} {payload : List String}
      (hid : idToken ∉ ["open", "close", "label", "status"]) (hbytes : bytes ≠ [])
      (hpayload : ∀ t ∈ payload, t ≠ "")
      (hdigits : Hex.decode (payload.flatMap String.toList) = some bytes) :
      Spelling (.send idToken bytes) (idToken :: payload)
  | label (idToken name : String) : Spelling (.label idToken name) ["label", idToken, name]
  | status : Spelling .status ["status"]

end Grammar

inductive Laid : List String → List Char → Prop
  | last (t : String) : Laid [t] t.toList
  | cons {t : String} {tokens : List String} {gap s : List Char} (hgap : gap ≠ [])
      (hsep : ∀ c ∈ gap, isSeparator c = true) (h : Laid tokens s) :
      Laid (t :: tokens) (t.toList ++ (gap ++ s))

namespace Command

def texts : Command → List String
  | openIpcServer path | openIpcClient path => [path]
  | close idToken | send idToken _ => [idToken]
  | label idToken name => [idToken, name]
  | _ => []

def host? : Command → Option String
  | openTcpClient _ remoteHost _ => some remoteHost
  | _ => none

/-- The texts of the command can be typed as tokens; a host may be empty. -/
structure Typable (cmd : Command) : Prop where
  texts : ∀ t ∈ cmd.texts, t ≠ "" ∧ ∀ c ∈ t.toList, isWhitespace c = false
  host : ∀ t ∈ cmd.host?, ∀ c ∈ t.toList, isWhitespace c = false

end Command

section Tokens

theorem isWhitespace_of_isSeparator {c : Char} (h : isSeparator c = true) :
    isWhitespace c = true := by
  rcases (Bool.or_eq_true _ _).mp h with h | h
  · rw [eq_of_beq h]
    rfl
  · rw [eq_of_beq h]
    rfl

theorem not_isSeparator {c : Char} (h : isWhitespace c = false) : isSeparator c = false := by
  by_contra hs
  rw [Bool.not_eq_false] at hs
  cases h.symm.trans (isWhitespace_of_isSeparator hs)

theorem trim_append {before s after : List Char} (hb : ∀ c ∈ before, isWhitespace c = true)
    (ha : ∀ c ∈ after, isWhitespace c = true) {hd : Char} {tl : List Char} (hs : s = hd :: tl)
    (hhd : isWhitespace hd = false) {lst : Char} {init : List Char} (hs' : s = init ++ [lst])
    (hlst : isWhitespace lst = false) : trim (before ++ (s ++ after)) = s := by
  have hleft : (before ++ (s ++ after)).dropWhile isWhitespace = s ++ after := by
    rw [List.dropWhile_append_of_pos hb, hs, List.cons_append,
      List.dropWhile_cons_of_neg (by rw [hhd]; exact Bool.false_ne_true)]
  rw [trim, hleft, List.rdropWhile, List.reverse_append,
    List.dropWhile_append_of_pos fun c hc ↦ ha c (List.mem_reverse.mp hc), hs',
    List.reverse_append, List.reverse_singleton, List.singleton_append,
    List.dropWhile_cons_of_neg (by rw [hlst]; exact Bool.false_ne_true), List.reverse_cons,
    List.reverse_reverse]

theorem splitTokens_gap {gap : List Char} (h : ∀ c ∈ gap, isSeparator c = true) (s : List Char) :
    splitTokens (gap ++ s) = splitTokens s := by
  induction gap with
  | nil => rfl
  | cons c gap ih =>
    obtain ⟨hc, hgap⟩ := List.forall_mem_cons.mp h
    rw [List.cons_append, splitTokens, List.splitOnP_cons_eq_if_modifyHead, if_pos hc,
      List.filter_cons_of_neg (by simp)]
    exact ih hgap

theorem splitTokens_word {t : String} (hne : t ≠ "") (ht : ∀ c ∈ t.toList, isSeparator c = false)
    {c : Char} (hc : isSeparator c = true) (s : List Char) :
    splitTokens (t.toList ++ c :: s) = t :: splitTokens s := by
  simp [splitTokens, List.splitOnP_append_cons_of_forall_mem ht c hc, hne]

theorem splitTokens_of_laid {tokens : List String} {s : List Char} (h : Laid tokens s)
    (ht : ∀ t ∈ tokens, t ≠ "" ∧ ∀ c ∈ t.toList, isSeparator c = false) :
    splitTokens s = tokens := by
  induction h with
  | last t =>
    obtain ⟨hne, hc⟩ := ht t List.mem_cons_self
    simp [splitTokens, List.splitOnP_eq_singleton hc, hne]
  | @cons t tokens gap s hgap hsep _ ih =>
    obtain ⟨⟨hne, hc⟩, hts⟩ := List.forall_mem_cons.mp ht
    obtain ⟨g, gap, rfl⟩ := List.exists_cons_of_ne_nil hgap
    obtain ⟨hg, hgap⟩ := List.forall_mem_cons.mp hsep
    rw [List.cons_append, splitTokens_word hne hc hg, splitTokens_gap hgap, ih hts]

theorem not_of_mem_splitOnP {α : Type*} {p : α → Bool} {s piece : List α}
    (h : piece ∈ s.splitOnP p) : ∀ a ∈ piece, p a = false := by
  induction s generalizing piece with
  | nil =>
    rw [List.splitOnP_nil, List.mem_singleton] at h
    exact h ▸ List.forall_mem_nil _
  | cons c s ih =>
    rw [List.splitOnP_cons_eq_if_modifyHead] at h
    split_ifs at h with hc
    · rcases List.mem_cons.mp h with rfl | h
      · exact List.forall_mem_nil _
      · exact ih h
    · obtain ⟨first, pieces, hs⟩ := List.exists_cons_of_ne_nil (List.splitOnP_ne_nil p s)
      rw [hs] at h ih
      rcases List.mem_cons.mp h with rfl | h
      · exact List.forall_mem_cons.mpr ⟨Bool.eq_false_of_not_eq_true hc, ih List.mem_cons_self⟩
      · exact ih (List.mem_cons_of_mem _ h)

theorem of_mem_splitTokens {s : List Char} {t : String} (h : t ∈ splitTokens s) :
    t ≠ "" ∧ ∀ c ∈ t.toList, isSeparator c = false := by
  obtain ⟨piece, hp, rfl⟩ := List.mem_map.mp h
  obtain ⟨hp, hne⟩ := List.mem_filter.mp hp
  refine ⟨by simpa using hne, ?_⟩
  rw [String.toList_ofList]
  exact not_of_mem_splitOnP hp

end Tokens

section Parser

theorem parseU16_eq_some_iff {s : String} {n : UInt16} :
    parseU16 s.toList = some n ↔ Padded n s := by
  unfold parseU16 Padded
  rw [toList_toString_u16, ← Text.unsigned_eq_some_iff]
  constructor
  · intro h
    obtain ⟨m, hm, h⟩ := Option.bind_eq_some_iff.mp h
    split_ifs at h with hlt
    cases h
    rw [UInt16.toNat_ofNat_of_lt' hlt, hm]
  · intro h
    rw [h, Option.bind_some, if_pos n.toNat_lt, UInt16.ofNat_toNat]

theorem parsePort_eq_ok_iff {message s : String} {n : UInt16} :
    parsePort message s.toList = .ok n ↔ Padded n s := by
  rw [← parseU16_eq_some_iff, parsePort]
  cases parseU16 s.toList <;> simp

theorem Padded.not_mem {n : UInt16} {s : String} (h : Padded n s) : ':' ∉ s.toList := by
  intro hm
  obtain ⟨m, hm', -⟩ := Option.bind_eq_some_iff.mp (parseU16_eq_some_iff.mpr h)
  rcases Text.char_of_unsigned hm' hm with hc | hc <;> cases hc

theorem toList_plain (host p : String) :
    s!"{host}:{p}".toList = host.toList ++ ':' :: p.toList := by
  change (host ++ ":" ++ p).toList = _
  rw [String.toList_append, String.toList_append, List.append_assoc]
  rfl

theorem toList_bracketed (host p : String) :
    s!"[{host}]:{p}".toList = '[' :: (host.toList ++ ']' :: ':' :: p.toList) := by
  change ("[" ++ host ++ "]:" ++ p).toList = _
  rw [String.toList_append, String.toList_append, String.toList_append, List.append_assoc,
    List.append_assoc]
  rfl

theorem splitHostPort_remote {t host : String} {port : UInt16}
    (h : splitHostPort t.toList = .ok (host, port)) : Remote Padded host port t := by
  have hport : ∀ {message host' portStr}, (parsePort message portStr).map
      (fun port ↦ (String.ofList host', port)) = .ok (host, port) →
      host.toList = host' ∧ Padded port (String.ofList portStr) := by
    intro message host' portStr hp
    cases hport : parsePort message portStr with
    | error e => rw [hport] at hp; cases hp
    | ok n =>
      rw [hport] at hp
      cases hp
      exact ⟨String.toList_ofList, parsePort_eq_ok_iff.mp (by rwa [String.toList_ofList])⟩
  unfold splitHostPort at h
  split at h
  · rename_i rest hrest
    have ht := Text.dropPrefix_eq_some hrest
    split at h
    · cases h
    · rename_i host' after hsplit
      obtain ⟨rfl, hhost⟩ := Text.splitFirst_eq_some hsplit
      split at h
      · cases h
      · rename_i portStr hafter
        obtain ⟨rfl, hp⟩ := hport h
        have he : t = s!"[{host}]:{String.ofList portStr}" := by
          rw [← String.toList_inj, toList_bracketed, String.toList_ofList, ht,
            Text.dropPrefix_eq_some hafter]
          rfl
        exact he ▸ .bracketed hhost hp
  · rename_i hnone
    split at h
    · cases h
    · rename_i host' portStr hsplit
      obtain ⟨rfl, hp⟩ := hport h
      have ht := (Text.splitLast_eq_some hsplit).1
      have he : t = s!"{host}:{String.ofList portStr}" := by
        rw [← String.toList_inj, toList_plain, String.toList_ofList, ht]
      refine he ▸ .plain (fun rest hr ↦ ?_) hp
      rw [ht, hr, List.cons_append] at hnone
      cases hnone

theorem splitHostPort_of_remote {t host : String} {port : UInt16}
    (h : Remote Padded host port t) : splitHostPort t.toList = .ok (host, port) := by
  cases h with
  | @plain p hhost hp =>
    have hnone : Text.dropPrefix ['['] (host.toList ++ ':' :: p.toList) = none := by
      cases hl : host.toList with
      | nil => rfl
      | cons c cs =>
        have hc : c ≠ '[' := fun he ↦ hhost cs (he ▸ hl)
        simp [Text.dropPrefix, Ne.symm hc]
    simp only [splitHostPort, toList_plain, hnone, Text.splitLast_append hp.not_mem,
      String.ofList_toList, parsePort_eq_ok_iff.mpr hp]
    rfl
  | @bracketed p hhost hp =>
    simp only [splitHostPort, toList_bracketed, Text.dropPrefix, if_true,
      Text.splitFirst_append hhost, String.ofList_toList, parsePort_eq_ok_iff.mpr hp]
    rfl

theorem parseOpenIpc_eq_ok_iff {args : List String} {cmd : Command} :
    parseOpenIpc args = .ok cmd ↔ Spelling Padded cmd ("open" :: "ipc" :: args) := by
  constructor
  · intro h
    unfold parseOpenIpc at h
    split at h
    · cases h
    · split at h <;> cases h
      exact .openIpcServer _
    · split at h <;> cases h
      exact .openIpcClient _
    · cases h
  · intro h
    generalize htokens : "open" :: "ipc" :: args = tokens at h
    cases h <;> simp at htokens
    case openIpcServer => rw [htokens]; rfl
    case openIpcClient => rw [htokens]; rfl
    case send hid _ _ _ => exact (hid (by simp [← htokens.1])).elim

theorem parseOpen_eq_ok_iff {args : List String} {cmd : Command} :
    parseOpen args = .ok cmd ↔ Spelling Padded cmd ("open" :: args) := by
  constructor
  · intro h
    unfold parseOpen at h
    split at h
    · cases h
    · split at h
      · rename_i p
        cases hp : parsePort "invalid port" p.toList with
        | error e => rw [hp] at h; cases h
        | ok port =>
          rw [hp] at h
          cases h
          exact .openTcpServer (parsePort_eq_ok_iff.mp hp)
      · cases h
    · split at h
      · rename_i l r
        cases hl : parsePort "invalid local port" l.toList with
        | error e => rw [hl] at h; cases h
        | ok localPort =>
          cases hr : splitHostPort r.toList with
          | error e => rw [hl, hr] at h; cases h
          | ok remote =>
            rw [hl, hr] at h
            cases h
            exact .openTcpClient (parsePort_eq_ok_iff.mp hl) (splitHostPort_remote hr)
      · cases h
    · exact parseOpenIpc_eq_ok_iff.mp h
    · cases h
  · intro h
    generalize htokens : "open" :: args = tokens at h
    cases h <;> simp at htokens
    case openTcpServer hp =>
      simp only [htokens, parseOpen, parsePort_eq_ok_iff.mpr hp]
      rfl
    case openIpcServer => rw [htokens]; rfl
    case openTcpClient hl hr =>
      simp only [htokens, parseOpen, parsePort_eq_ok_iff.mpr hl, splitHostPort_of_remote hr]
      rfl
    case openIpcClient => rw [htokens]; rfl
    case send hid _ _ _ => exact (hid (by simp [← htokens.1])).elim

theorem parseTokens_send {idToken : String} {payload : List String}
    (hid : idToken ∉ ["open", "close", "label", "status"]) (hne : payload ≠ []) :
    parseTokens (idToken :: payload) =
      match Hex.parseHexTokens payload with
      | .ok bytes => .ok (some (.send idToken bytes))
      | .error e => .error (.domain e) := by
  simp only [List.mem_cons, not_or] at hid
  obtain ⟨hopen, hclose, hlabel, hstatus, -⟩ := hid
  unfold parseTokens
  split <;> rename_i he
  · cases he
  · exact (hopen (List.cons.inj he).1).elim
  · exact (hclose (List.cons.inj he).1).elim
  · exact (hlabel (List.cons.inj he).1).elim
  · exact (hstatus (List.cons.inj he).1).elim
  · cases he
    split
    · exact (hne rfl).elim
    · cases Hex.parseHexTokens payload <;> rfl

/-- The tokens that are read as a command are the documented spellings of it. -/
theorem parseTokens_eq_ok_iff {tokens : List String} (h : ∀ t ∈ tokens, t ≠ "") {cmd : Command} :
    parseTokens tokens = .ok (some cmd) ↔ Spelling Padded cmd tokens := by
  constructor
  · intro hparse
    unfold parseTokens at hparse
    split at hparse
    · cases hparse
    · rename_i args
      cases ho : parseOpen args with
      | error e => rw [ho] at hparse; cases hparse
      | ok cmd' =>
        rw [ho] at hparse
        cases hparse
        exact parseOpen_eq_ok_iff.mp ho
    · split at hparse <;> cases hparse
      exact .close _
    · split at hparse <;> cases hparse
      exact .label _ _
    · split at hparse <;> cases hparse
      exact .status
    · rename_i idToken args hopen hclose hlabel hstatus
      split at hparse
      · cases hparse
      · split at hparse
        · rename_i bytes hhex
          cases hparse
          obtain ⟨hne, hd⟩ := Hex.parseHexTokens_eq_ok_iff.mp hhex
          refine .send ?_ ?_ (fun t ht ↦ h t (List.mem_cons_of_mem _ ht)) hd
          · simp only [List.mem_cons, List.not_mem_nil, or_false, not_or]
            exact ⟨hopen, hclose, hlabel, hstatus⟩
          · rintro rfl
            exact hne (Hex.eq_nil_of_decode hd)
        · cases hparse
  · intro hs
    cases hs with
    | openTcpServer hp =>
      rw [parseTokens, parseOpen_eq_ok_iff.mpr (.openTcpServer hp)]
      rfl
    | openTcpClient hl hr =>
      rw [parseTokens, parseOpen_eq_ok_iff.mpr (.openTcpClient hl hr)]
      rfl
    | openIpcServer | openIpcClient | close | label | status => rfl
    | @send idToken bytes payload hid hbytes hpayload hdigits =>
      have hdecode : payload.flatMap String.toList ≠ [] := by
        intro he
        rw [he] at hdigits
        exact hbytes (Option.some.inj hdigits).symm
      have hne : payload ≠ [] := by
        rintro rfl
        exact hdecode rfl
      rw [parseTokens_send hid hne, Hex.parseHexTokens_eq_ok_iff.mpr ⟨hdecode, hdigits⟩]

end Parser

section Words

def Word (t : String) : Prop := t ≠ "" ∧ ∀ c ∈ t.toList, isWhitespace c = false

instance (t : String) : Decidable (Word t) :=
  @instDecidableAnd _ _ _ (List.decidableBAll (fun c ↦ isWhitespace c = false) t.toList)

theorem not_isWhitespace_of_range {c : Char} (h : 0x21 ≤ c.toNat) (h' : c.toNat ≤ 0x7E) :
    isWhitespace c = false := by
  have hne : ∀ n : ℕ, 0x7E < n → (c.toNat == n) = false :=
    fun n hn ↦ beq_false_of_ne (by omega)
  simp only [isWhitespace]
  grind

theorem word_decimal {n : UInt16} {s : String} (h : Decimal n s) : Word s := by
  cases h
  refine ⟨fun he ↦ ?_, fun c hc ↦ ?_⟩
  · have hd := Text.digits_toString n.toNat
    rw [← toList_toString_u16, he] at hd
    cases hd
  · obtain ⟨h0, h9⟩ := Text.toNat_of_isDigit (char_of_mem_u16 hc)
    exact not_isWhitespace_of_range (by omega) (by omega)

theorem word_remote {host t : String} {port : UInt16} (h : Remote Decimal host port t)
    (hhost : ∀ c ∈ host.toList, isWhitespace c = false) : Word t := by
  cases h with
  | @plain p _ hp =>
    refine ⟨fun he ↦ ?_, fun c hc ↦ ?_⟩
    · have hl := toList_plain host p
      rw [he] at hl
      exact (List.append_ne_nil_of_right_ne_nil _ (List.cons_ne_nil _ _) hl.symm).elim
    · rw [toList_plain, List.mem_append, List.mem_cons] at hc
      rcases hc with hc | rfl | hc
      · exact hhost c hc
      · rfl
      · exact (word_decimal hp).2 c hc
  | @bracketed p _ hp =>
    refine ⟨fun he ↦ ?_, fun c hc ↦ ?_⟩
    · have hl := toList_bracketed host p
      rw [he] at hl
      cases hl
    · rw [toList_bracketed, List.mem_cons, List.mem_append, List.mem_cons, List.mem_cons] at hc
      rcases hc with rfl | hc | rfl | rfl | hc
      · rfl
      · exact hhost c hc
      · rfl
      · rfl
      · exact (word_decimal hp).2 c hc

theorem word_payload {payload : List String} {bytes : List UInt8}
    (hne : ∀ t ∈ payload, t ≠ "") (h : Hex.decode (payload.flatMap String.toList) = some bytes) :
    ∀ t ∈ payload, Word t := by
  refine fun t ht ↦ ⟨hne t ht, fun c hc ↦ ?_⟩
  obtain ⟨d, hd⟩ := Hex.toDigit_eq_some_iff.mp
    ((Hex.digits_of_decode h).1 c (List.mem_flatMap.mpr ⟨t, ht, hc⟩))
  rcases Hex.toDigit_cases hd with hr | hr | hr <;>
    exact not_isWhitespace_of_range (by omega) (by omega)

theorem word_of_spelling {cmd : Command} {tokens : List String} (hc : cmd.Typable)
    (h : Spelling Decimal cmd tokens) : ∀ t ∈ tokens, Word t := by
  have hkeyword : ∀ t ∈ ["open", "server", "client", "ipc", "close", "label", "status"], Word t := by
    decide
  cases h <;> simp only [List.forall_mem_cons]
  case openTcpServer hp =>
    exact ⟨hkeyword _ (by simp), hkeyword _ (by simp), word_decimal hp, List.forall_mem_nil _⟩
  case openIpcServer path =>
    exact ⟨hkeyword _ (by simp), hkeyword _ (by simp), hkeyword _ (by simp),
      hc.texts path (List.mem_singleton_self _), List.forall_mem_nil _⟩
  case openTcpClient host _ _ hl hr =>
    exact ⟨hkeyword _ (by simp), hkeyword _ (by simp), word_decimal hl,
      word_remote hr (hc.host host rfl), List.forall_mem_nil _⟩
  case openIpcClient path =>
    exact ⟨hkeyword _ (by simp), hkeyword _ (by simp), hkeyword _ (by simp),
      hc.texts path (List.mem_singleton_self _), List.forall_mem_nil _⟩
  case close idToken =>
    exact ⟨hkeyword _ (by simp), hc.texts idToken (List.mem_singleton_self _), List.forall_mem_nil _⟩
  case send idToken bytes payload _ _ hpayload hdigits =>
    exact ⟨hc.texts idToken (List.mem_singleton_self _), word_payload hpayload hdigits⟩
  case label idToken name =>
    exact ⟨hkeyword _ (by simp), hc.texts idToken (by simp [Command.texts]),
      hc.texts name (by simp [Command.texts]), List.forall_mem_nil _⟩
  case status => exact ⟨hkeyword _ (by simp), List.forall_mem_nil _⟩

theorem Word.exists_head {t : String} (h : Word t) :
    ∃ hd tl, t.toList = hd :: tl ∧ isWhitespace hd = false := by
  cases ht : t.toList with
  | nil => exact (h.1 (String.toList_eq_nil_iff.mp ht)).elim
  | cons hd tl => exact ⟨hd, tl, rfl, h.2 hd (ht ▸ List.mem_cons_self)⟩

theorem Word.exists_last {t : String} (h : Word t) :
    ∃ init lst, t.toList = init ++ [lst] ∧ isWhitespace lst = false := by
  rcases List.eq_nil_or_concat' t.toList with ht | ⟨init, lst, ht⟩
  · exact (h.1 (String.toList_eq_nil_iff.mp ht)).elim
  · exact ⟨init, lst, ht, h.2 lst (by simp [ht])⟩

theorem Laid.exists_head {tokens : List String} {s : List Char} (h : Laid tokens s)
    (hw : ∀ t ∈ tokens, Word t) : ∃ hd tl, s = hd :: tl ∧ isWhitespace hd = false := by
  cases h with
  | last t => exact (hw t List.mem_cons_self).exists_head
  | @cons t tokens gap s _ _ _ =>
    obtain ⟨hd, tl, ht, hhd⟩ := (hw t List.mem_cons_self).exists_head
    exact ⟨hd, tl ++ (gap ++ s), by rw [ht, List.cons_append], hhd⟩

theorem Laid.exists_last {tokens : List String} {s : List Char} (h : Laid tokens s)
    (hw : ∀ t ∈ tokens, Word t) : ∃ init lst, s = init ++ [lst] ∧ isWhitespace lst = false := by
  induction h with
  | last t => exact (hw t List.mem_cons_self).exists_last
  | @cons t tokens gap s _ _ _ ih =>
    obtain ⟨init, lst, hs, hlst⟩ := ih fun t ht ↦ hw t (List.mem_cons_of_mem _ ht)
    exact ⟨t.toList ++ (gap ++ init), lst, by rw [hs]; simp, hlst⟩

theorem splitTokens_trim {tokens : List String} {before s after : List Char} (h : Laid tokens s)
    (hw : ∀ t ∈ tokens, Word t) (hb : ∀ c ∈ before, isWhitespace c = true)
    (ha : ∀ c ∈ after, isWhitespace c = true) :
    splitTokens (trim (before ++ (s ++ after))) = tokens := by
  obtain ⟨hd, tl, hs, hhd⟩ := h.exists_head hw
  obtain ⟨init, lst, hs', hlst⟩ := h.exists_last hw
  rw [trim_append hb ha hs hhd hs' hlst]
  exact splitTokens_of_laid h fun t ht ↦ ⟨(hw t ht).1, fun c hc ↦ not_isSeparator ((hw t ht).2 c hc)⟩

end Words

theorem Decimal.padded {n : UInt16} {s : String} (h : Decimal n s) : Padded n s :=
  ⟨[], 0, .inl rfl, congrArg String.toList h⟩

theorem Spelling.padded {cmd : Command} {tokens : List String} (h : Spelling Decimal cmd tokens) :
    Spelling Padded cmd tokens := by
  cases h with
  | openTcpServer hp => exact .openTcpServer hp.padded
  | openIpcServer path => exact .openIpcServer path
  | openTcpClient hl hr =>
    refine .openTcpClient hl.padded ?_
    cases hr with
    | plain hhost hp => exact .plain hhost hp.padded
    | bracketed hhost hp => exact .bracketed hhost hp.padded
  | openIpcClient remotePath => exact .openIpcClient remotePath
  | close idToken => exact .close idToken
  | send hid hbytes hpayload hdigits => exact .send hid hbytes hpayload hdigits
  | label idToken name => exact .label idToken name
  | status => exact .status

theorem Spelling.texts {numeral : UInt16 → String → Prop} {cmd : Command} {tokens : List String}
    (h : Spelling numeral cmd tokens) {P : Char → Prop} (hp : ∀ t ∈ tokens, ∀ c ∈ t.toList, P c) :
    ∀ t ∈ cmd.texts ++ cmd.host?.toList, ∀ c ∈ t.toList, P c := by
  have hsub : ∀ {texts : List String}, texts ⊆ tokens → ∀ t ∈ texts, ∀ c ∈ t.toList, P c :=
    fun hsub t ht ↦ hp t (hsub ht)
  cases h with
  | openTcpServer | status => exact List.forall_mem_nil _
  | openIpcServer | openIpcClient | close | send | label =>
    refine hsub ?_
    simp [Command.texts, Command.host?]
  | @openTcpClient _ _ host l r _ hr =>
    intro t ht c hc
    cases List.mem_singleton.mp ht
    have hr' : ∀ c ∈ r.toList, P c := hp r (by simp)
    cases hr with
    | plain => exact hr' c (by rw [toList_plain]; exact List.mem_append_left _ hc)
    | bracketed =>
      refine hr' c ?_
      rw [toList_bracketed]
      exact List.mem_cons_of_mem _ (List.mem_append_left _ hc)

theorem spelling_of_parseLine {line : String} {cmd : Command}
    (h : parseLine line = .ok (some cmd)) :
    Spelling Padded cmd (splitTokens (trim line.toList)) :=
  (parseTokens_eq_ok_iff fun _ ht ↦ (of_mem_splitTokens ht).1).mp h

/-- The parser reads the documented commands, and reads nothing else as a command. -/
theorem parseLine_grammar :
    (∀ cmd tokens before s after, cmd.Typable → Spelling Decimal cmd tokens → Laid tokens s →
      (∀ c ∈ before, isWhitespace c = true) → (∀ c ∈ after, isWhitespace c = true) →
      parseLine (String.ofList (before ++ (s ++ after))) = .ok (some cmd)) ∧
    ∀ line cmd, parseLine line = .ok (some cmd) →
      Spelling Padded cmd (splitTokens (trim line.toList)) ∧
      ∀ t ∈ cmd.texts ++ cmd.host?.toList, ∀ c ∈ t.toList, isSeparator c = false := by
  constructor
  · intro cmd tokens before s after hc hs hl hb ha
    have hw := word_of_spelling hc hs
    rw [parseLine, String.toList_ofList, splitTokens_trim hl hw hb ha]
    exact (parseTokens_eq_ok_iff fun t ht ↦ (hw t ht).1).mpr hs.padded
  · intro line cmd h
    have hs := spelling_of_parseLine h
    exact ⟨hs, hs.texts fun t ht ↦ (of_mem_splitTokens ht).2⟩

theorem client_line_grammar :
    parseLine " open client\t4000  [::1]:22 " = .ok (some (.openTcpClient 4000 "::1" 22)) ∧
      Spelling Padded (.openTcpClient 4000 "::1" 22)
        (splitTokens (trim " open client\t4000  [::1]:22 ".toList)) := by
  have hr : Remote Decimal "::1" 22 "[::1]:22" := by
    refine .bracketed ?_ (show Decimal 22 "22" from rfl)
    decide
  have hs : Spelling Decimal (.openTcpClient 4000 "::1" 22) ["open", "client", "4000", "[::1]:22"] :=
    .openTcpClient rfl hr
  have hspace : ∀ c ∈ [' '], isSeparator c = true := List.forall_mem_singleton.mpr rfl
  have htab : ∀ c ∈ ['\t'], isSeparator c = true := List.forall_mem_singleton.mpr rfl
  have hl : Laid ["open", "client", "4000", "[::1]:22"] "open client\t4000  [::1]:22".toList :=
    .cons (List.cons_ne_nil _ _) hspace (.cons (List.cons_ne_nil _ _) htab
      (.cons (List.cons_ne_nil _ _) (List.forall_mem_cons.mpr ⟨rfl, hspace⟩) (.last "[::1]:22")))
  have hc : (Command.openTcpClient 4000 "::1" 22).Typable := by
    refine ⟨List.forall_mem_nil _, fun t ht ↦ ?_⟩
    cases ht
    exact (show Word "::1" by decide).2
  have hparse := parseLine_grammar.1 _ _ [' '] _ [' '] hc hs hl
    (List.forall_mem_singleton.mpr rfl) (List.forall_mem_singleton.mpr rfl)
  exact ⟨hparse, (parseLine_grammar.2 _ _ hparse).1⟩

end WireDock
