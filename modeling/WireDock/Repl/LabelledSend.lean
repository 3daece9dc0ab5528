import WireDock.Domain.HexDecoding
import WireDock.Repl.Grammar

namespace WireDock

section Lines

theorem head?_trim (s : List Char) : ∀ c ∈ (trim s).head?, isWhitespace c = false := by
  intro c hc
  obtain ⟨rest, hrest⟩ : trim s <+: s.dropWhile isWhitespace := List.rdropWhile_prefix _ _
  have hhead : (s.dropWhile isWhitespace).head? = some c := by
    rw [← hrest, List.head?_append, hc, Option.some_or]
  have hnot := List.head?_dropWhile_not isWhitespace s
  rw [hhead] at hnot
  exact hnot

theorem splitTokens_cons {c : Char} (hc : isSeparator c = false) (s : List Char) :
    ∃ t tokens, splitTokens (c :: s) = String.ofList (c :: t) :: tokens := by
  obtain ⟨first, pieces, hs⟩ := List.exists_cons_of_ne_nil (List.splitOnP_ne_nil isSeparator s)
  refine ⟨first, (pieces.filter (!·.isEmpty)).map String.ofList, ?_⟩
  rw [splitTokens, List.splitOnP_cons_eq_if_modifyHead, if_neg (by rw [hc]; simp), hs,
    List.modifyHead_cons, List.filter_cons_of_pos rfl, List.map_cons]

/-- The first token of a line never begins with whitespace. -/
theorem head?_of_splitTokens_trim {s : List Char} {t : String} {tokens : List String}
    (h : splitTokens (trim s) = t :: tokens) : ∀ c ∈ t.toList.head?, isWhitespace c = false := by
  have hhead := head?_trim s
  cases hs : trim s with
  | nil =>
    rw [hs] at h
    cases h
  | cons hd tl =>
    rw [hs] at h hhead
    have hhd := hhead hd rfl
    obtain ⟨first, rest, hsplit⟩ := splitTokens_cons (not_isSeparator hhd) tl
    cases hsplit.symm.trans h
    intro c hc
    rw [String.toList_ofList] at hc
    cases hc
    exact hhd

end Lines

section Payload

theorem words_formatByte (bytes : List UInt8) : ∀ t ∈ bytes.map Hex.formatByte, Word t := by
  refine word_payload (fun t ht he ↦ ?_)
    (Hex.flatMap_formatByte bytes ▸ Hex.decode_byteDigits bytes)
  obtain ⟨b, -, rfl⟩ := List.mem_map.mp ht
  have hdigits := Hex.toList_formatByte b
  rw [he] at hdigits
  cases hdigits

theorem laid_formatHexSpaced {bytes : List UInt8} (hne : bytes ≠ []) :
    Laid (bytes.map Hex.formatByte) (Hex.formatHexSpaced bytes).toList := by
  induction bytes with
  | nil => exact (hne rfl).elim
  | cons b rest ih =>
    rw [Hex.toList_formatHexSpaced] at ih ⊢
    cases rest with
    | nil =>
      have hlast := Laid.last (Hex.formatByte b)
      rw [Hex.toList_formatByte] at hlast
      exact hlast
    | cons b' rest =>
      have hcons : [' '].intercalate ((b :: b' :: rest).map Hex.byteDigits) =
          (Hex.formatByte b).toList ++
            ([' '] ++ [' '].intercalate ((b' :: rest).map Hex.byteDigits)) := by
        rw [List.map_cons, List.map_cons, List.intercalate_cons_cons, Hex.toList_formatByte,
          List.append_assoc]
      rw [hcons]
      exact .cons (List.cons_ne_nil _ _) (List.forall_mem_singleton.mpr rfl)
        (ih (List.cons_ne_nil _ _))

end Payload

section SendLine

variable {name : String} {bytes : List UInt8}

structure BeginsSend (name : String) : Prop where
  command : name ∉ ["open", "close", "label", "status"]
  head : ∀ c ∈ name.toList.head?, isWhitespace c = false

theorem token_of_parseLine_label {line idToken : String}
    (h : parseLine line = .ok (some (.label idToken name))) :
    name ≠ "" ∧ ∀ c ∈ name.toList, isSeparator c = false := by
  have hs := spelling_of_parseLine h
  generalize htokens : splitTokens (trim line.toList) = tokens at hs
  cases hs
  have hmem : name ∈ splitTokens (trim line.toList) := by
    rw [htokens]
    simp
  exact of_mem_splitTokens hmem

theorem toList_sendLine (name : String) (bytes : List UInt8) :
    (name ++ " " ++ Hex.formatHexSpaced bytes).toList =
      name.toList ++ ([' '] ++ (Hex.formatHexSpaced bytes).toList) := by
  rw [String.toList_append, String.toList_append, List.append_assoc]
  rfl

theorem trim_sendLine (hne : name ≠ "")
    (hhead : ∀ c ∈ name.toList.head?, isWhitespace c = false) (hbytes : bytes ≠ []) :
    trim (name ++ " " ++ Hex.formatHexSpaced bytes).toList =
      (name ++ " " ++ Hex.formatHexSpaced bytes).toList := by
  obtain ⟨hd, tl, hname⟩ := List.exists_cons_of_ne_nil (mt String.toList_eq_nil_iff.mp hne)
  obtain ⟨init, lst, hlast, hlst⟩ :=
    (laid_formatHexSpaced hbytes).exists_last (words_formatByte bytes)
  have hcons : (name ++ " " ++ Hex.formatHexSpaced bytes).toList =
      hd :: (tl ++ ([' '] ++ (Hex.formatHexSpaced bytes).toList)) := by
    rw [toList_sendLine, hname, List.cons_append]
  have hsnoc : (name ++ " " ++ Hex.formatHexSpaced bytes).toList =
      (name.toList ++ ([' '] ++ init)) ++ [lst] := by
    rw [toList_sendLine, hlast, List.append_assoc, List.append_assoc]
  have htrim := trim_append (List.forall_mem_nil _) (List.forall_mem_nil _) hcons
    (hhead hd (by rw [hname]; rfl)) hsnoc hlst
  rwa [List.nil_append, List.append_nil] at htrim

theorem splitTokens_sendLine (hne : name ≠ "") (hsep : ∀ c ∈ name.toList, isSeparator c = false)
    (hhead : ∀ c ∈ name.toList.head?, isWhitespace c = false) (hbytes : bytes ≠ []) :
    splitTokens (trim (name ++ " " ++ Hex.formatHexSpaced bytes).toList) =
      name :: bytes.map Hex.formatByte := by
  rw [trim_sendLine hne hhead hbytes, toList_sendLine]
  refine splitTokens_of_laid (.cons (List.cons_ne_nil _ _) (List.forall_mem_singleton.mpr rfl)
    (laid_formatHexSpaced hbytes)) (List.forall_mem_cons.mpr ⟨⟨hne, hsep⟩, fun t ht ↦ ?_⟩)
  have hword := words_formatByte bytes t ht
  exact ⟨hword.1, fun c hc ↦ not_isSeparator (hword.2 c hc)⟩

end SendLine

/-- A label is usable in place of its id in a send exactly when it is no command
word and does not begin with a whitespace character. -/
theorem label_usable_iff {line idToken name : String} {bytes : List UInt8}
    (h : parseLine line = .ok (some (.label idToken name))) (hbytes : bytes ≠ []) :
    parseLine (name ++ " " ++ Hex.formatHexSpaced bytes) = .ok (some (.send name bytes)) ↔
      BeginsSend name := by
  obtain ⟨hne, hsep⟩ := token_of_parseLine_label h
  constructor
  · intro hparse
    have hs := spelling_of_parseLine hparse
    generalize htokens : splitTokens (trim _) = tokens at hs
    cases hs with
    | send hid => exact ⟨hid, head?_of_splitTokens_trim htokens⟩
  · rintro ⟨hid, hhead⟩
    have hpayload : bytes.map Hex.formatByte ≠ [] := by simpa using hbytes
    rw [parseLine, splitTokens_sendLine hne hsep hhead hbytes, parseTokens_send hid hpayload,
      Hex.parseHexTokens_formatByte hbytes]

theorem label_usable_cam :
    parseLine ("cam" ++ " " ++ Hex.formatHexSpaced [0x3A]) = .ok (some (.send "cam" [0x3A])) := by
  have h : parseLine "label 3000 cam" = .ok (some (.label "3000" "cam")) := by decide
  refine (label_usable_iff h (List.cons_ne_nil _ _)).mpr ⟨by decide, ?_⟩
  intro c hc
  cases hc
  rfl

/-- Under the label `close`, a send is read as a close command. -/
theorem label_taken_as_command :
    ¬ ∀ line idToken name bytes, parseLine line = .ok (some (.label idToken name)) → bytes ≠ [] →
      parseLine (name ++ " " ++ Hex.formatHexSpaced bytes) = .ok (some (.send name bytes)) := by
  intro h
  have hline : parseLine "label 3000 close" = .ok (some (.label "3000" "close")) := by decide
  have hsend := h _ _ _ [0x3A] hline (List.cons_ne_nil _ _)
  have hclose : parseLine ("close" ++ " " ++ Hex.formatHexSpaced [0x3A]) =
      .ok (some (.close "3A")) := by decide
  rw [hclose] at hsend
  cases hsend

end WireDock
