import TypeSieve.Json.Printer
import TypeSieve.Json.Reader

/-!
# Texts in JSON texts

A text is escaped character by character, and each escaped character is read as one piece that
stands for it: a code unit for a control without a short escape, the character itself for any other.
-/

namespace TypeSieve.Json

/-- The piece that the escaped form of a character is read as. -/
def piece (c : Char) : Piece :=
  if c.toNat < 32 ∧ c ∉ ['\x08', '\x0c', '\n', '\r', '\t'] then .unit c.toNat else .char c

/-- The pieces of a text. -/
def piecesOf (text : String) : List Piece := text.toList.map piece

/-- A control is a character below the space. -/
theorem lt_space_iff (c : Char) : c < ' ' ↔ c.toNat < 32 := Iff.rfl

/-- The two hexadecimal digits of a control spell it and are neither a quote nor a backslash. -/
theorem hexDigits_control : ∀ n, n < 32 →
    Text.valueInBase? 16 ['0', '0', Nat.digitChar (n / 16), Nat.digitChar (n % 16)] = some n ∧
      Nat.digitChar (n / 16) ≠ '"' ∧ Nat.digitChar (n / 16) ≠ '\\' ∧
      Nat.digitChar (n % 16) ≠ '"' ∧ Nat.digitChar (n % 16) ≠ '\\' := by
  decide

/-- The escaped form of a character is a short escape, a code unit or the character. -/
theorem escapeChar_cases (c : Char) :
    (∃ e, escapeChar c = ['\\', e] ∧ e ≠ 'u' ∧ shortEscape? e = some c ∧ piece c = .char c) ∨
      (c.toNat < 32 ∧ piece c = .unit c.toNat ∧ escapeChar c =
        ['\\', 'u', '0', '0', Nat.digitChar (c.toNat / 16), Nat.digitChar (c.toNat % 16)]) ∨
      (escapeChar c = [c] ∧ c ≠ '"' ∧ c ≠ '\\' ∧ ¬ c < ' ' ∧ piece c = .char c) := by
  by_cases hshort : c ∈ ['"', '\\', '\x08', '\x0c', '\n', '\r', '\t']
  · left
    simp only [List.mem_cons, List.not_mem_nil, or_false] at hshort
    rcases hshort with rfl | rfl | rfl | rfl | rfl | rfl | rfl <;>
      exact ⟨_, rfl, by decide, rfl, rfl⟩
  · simp only [List.mem_cons, List.not_mem_nil, or_false, not_or] at hshort
    obtain ⟨hquote, hslash, hb, hf, hn, hr, ht⟩ := hshort
    by_cases hcontrol : c.toNat < 32
    · have hlt := (lt_space_iff c).mpr hcontrol
      exact Or.inr (Or.inl ⟨hcontrol, by simp [piece, hcontrol, hb, hf, hn, hr, ht],
        by simp [escapeChar, hlt, hquote, hslash, hb, hf, hn, hr, ht]⟩)
    · have hlt := mt (lt_space_iff c).mp hcontrol
      exact Or.inr (Or.inr ⟨by simp [escapeChar, hlt, hquote, hslash, hb, hf, hn, hr, ht], hquote,
        hslash, hlt, by simp [piece, hcontrol]⟩)

/-- An escaped character is read as its piece. -/
theorem readPieces_escapeChar (c : Char) (rest : List Char) :
    readPieces (escapeChar c ++ rest) = (readPieces rest).map (piece c :: ·) := by
  rcases escapeChar_cases c with ⟨e, hform, hu, hshort, hpiece⟩ | ⟨hcontrol, hpiece, hform⟩ |
    ⟨hform, hquote, hslash, hlt, hpiece⟩
  · rw [hform, hpiece]
    cases hrest : readPieces rest <;> simp [readPieces, hu, hshort, hrest]
  · have hdigits := (hexDigits_control c.toNat hcontrol).1
    rw [hform, hpiece]
    cases hrest : readPieces rest <;> simp [readPieces, hdigits, hrest]
  · rw [hform, hpiece]
    cases hrest : readPieces rest <;> simp [readPieces, hslash, hlt, hrest]

/-- An escaped text is read as its pieces. -/
theorem readPieces_flatMap_escapeChar (cs : List Char) :
    readPieces (cs.flatMap escapeChar) = some (cs.map piece) := by
  induction cs with
  | nil => rfl
  | cons c rest ih =>
    rw [List.flatMap_cons, readPieces_escapeChar, ih, Option.map_some, List.map_cons]

/-- A code unit of a control is the control, whatever follows. -/
theorem decodePieces_unit {code : Nat} (h : code < 32) (rest : List Piece) :
    decodePieces (.unit code :: rest) = (decodePieces rest).map (Char.ofNat code :: ·) := by
  have hhigh : ¬(0xD800 ≤ code ∧ code < 0xDC00) := by omega
  have hlow : ¬(0xDC00 ≤ code ∧ code < 0xE000) := by omega
  have hany : ¬(0xD800 ≤ code ∧ code < 0xE000) := by omega
  cases rest with
  | nil => simp only [decodePieces, if_neg hany]
  | cons next rest =>
    cases next with
    | char c => simp only [decodePieces, if_neg hany]
    | unit low => simp only [decodePieces, if_neg hhigh, if_neg hlow]

/-- The pieces of a text stand for it. -/
theorem decodePieces_map_piece (cs : List Char) : decodePieces (cs.map piece) = some cs := by
  induction cs with
  | nil => rfl
  | cons c rest ih =>
    rw [List.map_cons, piece]
    split
    · next hcontrol => rw [decodePieces_unit hcontrol.1, ih, Option.map_some, Char.ofNat_toNat]
    · rw [decodePieces, ih, Option.map_some]

/-- The pieces of a text denote it. -/
theorem decodeText_piecesOf (text : String) : decodeText (piecesOf text) = some text := by
  rw [decodeText, piecesOf, decodePieces_map_piece, Option.map_some, String.ofList_toList]

/-- Inside a literal, a character that is neither a quote nor a backslash is gathered. -/
theorem scan_plain (done : List Lexeme) (read : List Char) {c : Char} (hquote : c ≠ '"')
    (hslash : c ≠ '\\') :
    Scan.step ⟨done, .text false read⟩ c = some ⟨done, .text false (c :: read)⟩ := by
  have hbeq : (c == '\\') = false := beq_eq_false_iff_ne.mpr hslash
  simp only [Scan.step, if_neg hquote, hbeq]

/-- Inside a literal, an escaped character is gathered and does not end the literal. -/
theorem scan_escapeChar (done : List Lexeme) (read : List Char) (c : Char) :
    (escapeChar c).foldlM Scan.step ⟨done, .text false read⟩ =
      some ⟨done, .text false ((escapeChar c).reverse ++ read)⟩ := by
  rcases escapeChar_cases c with ⟨e, hform, -, -, -⟩ | ⟨hcontrol, -, hform⟩ |
    ⟨hform, hquote, hslash, -, -⟩
  · rw [hform]
    rfl
  · obtain ⟨-, hq, hs, hq', hs'⟩ := hexDigits_control c.toNat hcontrol
    have hstart : ['\\', 'u', '0', '0'].foldlM Scan.step ⟨done, .text false read⟩ =
        some ⟨done, .text false ('0' :: '0' :: 'u' :: '\\' :: read)⟩ := rfl
    have hsplit :
        ['\\', 'u', '0', '0', Nat.digitChar (c.toNat / 16), Nat.digitChar (c.toNat % 16)] =
        ['\\', 'u', '0', '0'] ++ [Nat.digitChar (c.toNat / 16), Nat.digitChar (c.toNat % 16)] := rfl
    rw [hform, hsplit, List.foldlM_append, hstart]
    simp [scan_plain, hq, hs, hq', hs']
  · rw [hform]
    simp [scan_plain, hquote, hslash]

/-- Inside a literal, an escaped text is gathered. -/
theorem scan_flatMap_escapeChar (done : List Lexeme) (read cs : List Char) :
    (cs.flatMap escapeChar).foldlM Scan.step ⟨done, .text false read⟩ =
      some ⟨done, .text false ((cs.flatMap escapeChar).reverse ++ read)⟩ := by
  induction cs generalizing read with
  | nil => rfl
  | cons c rest ih =>
    rw [List.flatMap_cons, List.foldlM_append, scan_escapeChar]
    change (rest.flatMap escapeChar).foldlM Scan.step _ = _
    rw [ih, List.reverse_append, List.append_assoc]

/-- Between lexemes, the literal of a text is scanned to its pieces. -/
theorem scan_literalChars (done : List Lexeme) (text : String) :
    (literalChars text).foldlM Scan.step ⟨done, .between⟩ =
      some ⟨.text (piecesOf text) :: done, .between⟩ := by
  have hopen : Scan.step ⟨done, .between⟩ '"' = some ⟨done, .text false []⟩ := rfl
  rw [literalChars, List.cons_append, List.foldlM_cons, hopen]
  change (text.toList.flatMap escapeChar ++ ['"']).foldlM Scan.step _ = _
  rw [List.foldlM_append, scan_flatMap_escapeChar]
  change List.foldlM Scan.step _ ['"'] = _
  simp [Scan.step, readPieces_flatMap_escapeChar, piecesOf]

end TypeSieve.Json
