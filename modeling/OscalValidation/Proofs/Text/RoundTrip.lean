import OscalValidation.Proofs.Text.Decoding

set_option autoImplicit false

/-! # Decoding what was encoded

The bytes of a character in UTF-8 are one piece, and the piece is the character again
(`utf8Piece_utf8EncodeChar`). So a text is what its bytes are decoded to (`decode_encode`).
-/

namespace OscalValidation.Text

/-! ## Characters by their length -/

theorem isContinuation_iff {b : UInt8} :
    isContinuation b = true ↔ 128 ≤ b.toNat ∧ b.toNat < 192 := by
  simp [isContinuation, UInt8.le_iff_toNat_le, UInt8.lt_iff_toNat_lt]

/-- A byte that continues a character may stand second if the character needs its length and is no
surrogate. -/
theorem secondByteOk_of_isContinuation {surrogates : Bool} {first second : UInt8}
    (h : isContinuation second = true) (hE0 : first.toNat = 224 → 160 ≤ second.toNat)
    (hED : first.toNat = 237 → second.toNat < 160) (hF0 : first.toNat = 240 → 144 ≤ second.toNat)
    (hF4 : first.toNat = 244 → second.toNat < 144) :
    secondByteOk surrogates first second = true := by
  have hfirst : ∀ n : UInt8, first = n → first.toNat = n.toNat := fun n hn => congrArg _ hn
  rw [secondByteOk, h, Bool.true_and]
  split
  · next heq => simpa [UInt8.le_iff_toNat_le] using hE0 (hfirst _ heq)
  split
  · next heq => simpa [UInt8.lt_iff_toNat_lt] using Or.inr (hED (hfirst _ heq))
  split
  · next heq => simpa [UInt8.le_iff_toNat_le] using hF0 (hfirst _ heq)
  split
  · next heq => simpa [UInt8.lt_iff_toNat_lt] using hF4 (hfirst _ heq)
  · rfl

theorem lengthFromFirst_of_bounds {b : UInt8} :
    (194 ≤ b.toNat → b.toNat < 224 → lengthFromFirst b = 2) ∧
      (224 ≤ b.toNat → b.toNat < 240 → lengthFromFirst b = 3) ∧
      (240 ≤ b.toNat → b.toNat < 245 → lengthFromFirst b = 4) := by
  simp only [lengthFromFirst, UInt8.lt_iff_toNat_lt, UInt8.reduceToNat]
  grind

section Lengths

variable {surrogates : Bool} {b b' b'' last : UInt8} (rest : Bytes)

theorem utf8Piece_two (hlow : 194 ≤ b.toNat) (hhigh : b.toNat < 224)
    (h : isContinuation b' = true) :
    utf8Piece surrogates b (b' :: rest) =
      .char (Char.ofNat (b.toNat % 32 * 64 + payload b')) 2 := by
  simp only [utf8Piece, lengthFromFirst_of_bounds.1 hlow hhigh, h, if_true]

theorem utf8Piece_three (hlow : 224 ≤ b.toNat) (hhigh : b.toNat < 240)
    (h : ∀ whole, secondByteOk whole b b' = true) (h' : isContinuation b'' = true) :
    utf8Piece surrogates b (b' :: b'' :: rest) =
      .char (charOfCode ((b.toNat % 16 * 64 + payload b') * 64 + payload b'')) 3 := by
  simp only [utf8Piece, lengthFromFirst_of_bounds.2.1 hlow hhigh, h, h', Bool.not_true,
    Bool.false_eq_true, if_false, if_true]

theorem utf8Piece_four (hlow : 240 ≤ b.toNat) (hhigh : b.toNat < 245)
    (h : ∀ whole, secondByteOk whole b b' = true) (h' : isContinuation b'' = true)
    (h'' : isContinuation last = true) :
    utf8Piece surrogates b (b' :: b'' :: last :: rest) =
      .char (Char.ofNat
        (((b.toNat % 8 * 64 + payload b') * 64 + payload b'') * 64 + payload last)) 4 := by
  simp only [utf8Piece, lengthFromFirst_of_bounds.2.2 hlow hhigh, h, h', h'', Bool.not_true,
    Bool.false_eq_true, if_false, if_true]

end Lengths

/-- **The bytes of a character are one piece,** whatever follows. -/
theorem utf8Piece_utf8EncodeChar (surrogates : Bool) (c : Char) (rest : Bytes) :
    ∃ b more, String.utf8EncodeChar c = b :: more ∧
      utf8Piece surrogates b (more ++ rest) = .char c (more.length + 1) := by
  have hv : c.val.toNat = c.toNat := rfl
  -- the code is no surrogate and below the last plane
  have hvalid : c.toNat.isValidChar := c.valid
  unfold Nat.isValidChar at hvalid
  unfold String.utf8EncodeChar
  simp only [hv]
  split
  · refine ⟨_, [], rfl, ?_⟩
    have hn : (UInt8.ofNat c.toNat).toNat = c.toNat := by rw [UInt8.toNat_ofNat']; omega
    rw [List.nil_append, utf8Piece_of_lt surrogates, hn, Char.ofNat_toNat]
    · rfl
    · rw [UInt8.lt_iff_toNat_lt, hn]
      show c.toNat < 128
      omega
  split
  · refine ⟨_, _, rfl, ?_⟩
    generalize hb : UInt8.ofNat (c.toNat / 64 % 32 + 192) = b
    generalize hb' : UInt8.ofNat (c.toNat % 64 + 128) = b'
    have hn : b.toNat = c.toNat / 64 + 192 := by rw [← hb, UInt8.toNat_ofNat']; omega
    have hn' : b'.toNat = c.toNat % 64 + 128 := by rw [← hb', UInt8.toNat_ofNat']; omega
    have hcode : b.toNat % 32 * 64 + payload b' = c.toNat := by unfold payload; omega
    rw [List.singleton_append, utf8Piece_two rest (by omega) (by omega)
      (isContinuation_iff.mpr (by omega)), hcode, Char.ofNat_toNat]
    rfl
  split
  · refine ⟨_, _, rfl, ?_⟩
    generalize hb : UInt8.ofNat (c.toNat / 4096 % 16 + 224) = b
    generalize hb' : UInt8.ofNat (c.toNat / 64 % 64 + 128) = b'
    generalize hb'' : UInt8.ofNat (c.toNat % 64 + 128) = b''
    have hn : b.toNat = c.toNat / 4096 + 224 := by rw [← hb, UInt8.toNat_ofNat']; omega
    have hn' : b'.toNat = c.toNat / 64 % 64 + 128 := by rw [← hb', UInt8.toNat_ofNat']; omega
    have hn'' : b''.toNat = c.toNat % 64 + 128 := by rw [← hb'', UInt8.toNat_ofNat']; omega
    have hok : ∀ whole, secondByteOk whole b b' = true := fun whole =>
      secondByteOk_of_isContinuation (isContinuation_iff.mpr (by omega)) (by omega) (by omega)
        (by omega) (by omega)
    have hcode : (b.toNat % 16 * 64 + payload b') * 64 + payload b'' = c.toNat := by
      unfold payload
      omega
    rw [List.cons_append, List.singleton_append, utf8Piece_three rest (by omega) (by omega) hok
      (isContinuation_iff.mpr (by omega)), hcode, charOfCode, if_neg (by omega),
      Char.ofNat_toNat]
    rfl
  · refine ⟨_, _, rfl, ?_⟩
    generalize hb : UInt8.ofNat (c.toNat / 262144 % 8 + 240) = b
    generalize hb' : UInt8.ofNat (c.toNat / 4096 % 64 + 128) = b'
    generalize hb'' : UInt8.ofNat (c.toNat / 64 % 64 + 128) = b''
    generalize hlast : UInt8.ofNat (c.toNat % 64 + 128) = last
    have hn : b.toNat = c.toNat / 262144 + 240 := by rw [← hb, UInt8.toNat_ofNat']; omega
    have hn' : b'.toNat = c.toNat / 4096 % 64 + 128 := by rw [← hb', UInt8.toNat_ofNat']; omega
    have hn'' : b''.toNat = c.toNat / 64 % 64 + 128 := by rw [← hb'', UInt8.toNat_ofNat']; omega
    have hnlast : last.toNat = c.toNat % 64 + 128 := by rw [← hlast, UInt8.toNat_ofNat']; omega
    have hok : ∀ whole, secondByteOk whole b b' = true := fun whole =>
      secondByteOk_of_isContinuation (isContinuation_iff.mpr (by omega)) (by omega) (by omega)
        (by omega) (by omega)
    have hcode : ((b.toNat % 8 * 64 + payload b') * 64 + payload b'') * 64 + payload last =
        c.toNat := by
      unfold payload
      omega
    rw [List.cons_append, List.cons_append, List.singleton_append,
      utf8Piece_four rest (by omega) (by omega) hok (isContinuation_iff.mpr (by omega))
        (isContinuation_iff.mpr (by omega)), hcode, Char.ofNat_toNat]
    rfl

/-! ## Whole texts -/

/-- The bytes of a piece after its first make no pieces of their own. -/
theorem piecesFrom_append (encoding : Encoding) (surrogates : Bool) (skipped rest : Bytes) :
    piecesFrom encoding surrogates skipped.length (skipped ++ rest) =
      piecesFrom encoding surrogates 0 rest := by
  induction skipped with
  | nil => rfl
  | cons b skipped ih => rw [List.cons_append, List.length_cons, piecesFrom, ih]

theorem joinPieces_flatMap (total : Nat) (surrogates : Bool) (cs : List Char) :
    joinPieces .utf8 total (piecesFrom .utf8 surrogates 0 (cs.flatMap String.utf8EncodeChar)) =
      .ok cs := by
  induction cs with
  | nil => rfl
  | cons c cs ih =>
      obtain ⟨b, more, hbytes, hpiece⟩ :=
        utf8Piece_utf8EncodeChar surrogates c (cs.flatMap String.utf8EncodeChar)
      rw [List.flatMap_cons, hbytes, List.cons_append, piecesFrom]
      simp only [Encoding.piece, hpiece, Piece.length, Nat.add_sub_cancel, joinPieces]
      rw [piecesFrom_append, ih]
      rfl

/-- **A text is what its bytes are decoded to.** -/
theorem decode_encode (surrogates : Bool) (s : String) :
    decode .utf8 surrogates (encode s) = .ok s := by
  rw [decode_eq_ok_iff, encode_eq_flatMap]
  exact joinPieces_flatMap _ surrogates s.toList

/-! ## First bytes -/

theorem utf8EncodeChar_of_isAscii {c : Char} (h : IsAscii c) :
    String.utf8EncodeChar c = [byteOf c] := by
  have hle : c.val.toNat ≤ 127 := Nat.le_of_lt_succ h
  simp only [String.utf8EncodeChar, if_pos hle]
  rfl

/-- The bytes of a character that is not of ASCII are not of ASCII either. -/
theorem le_of_mem_utf8EncodeChar {c : Char} (hc : ¬ IsAscii c) {b : UInt8}
    (hb : b ∈ String.utf8EncodeChar c) : 128 ≤ b.toNat := by
  have hv : c.val.toNat = c.toNat := rfl
  have hvalid : c.toNat.isValidChar := c.valid
  unfold Nat.isValidChar at hvalid
  unfold IsAscii at hc
  have hlarge : ¬ c.toNat ≤ 127 := by omega
  unfold String.utf8EncodeChar at hb
  simp only [hv, if_neg hlarge] at hb
  split at hb
  · simp only [List.mem_cons, List.not_mem_nil, or_false] at hb
    rcases hb with rfl | rfl <;> rw [UInt8.toNat_ofNat'] <;> omega
  split at hb
  · simp only [List.mem_cons, List.not_mem_nil, or_false] at hb
    rcases hb with rfl | rfl | rfl <;> rw [UInt8.toNat_ofNat'] <;> omega
  · simp only [List.mem_cons, List.not_mem_nil, or_false] at hb
    rcases hb with rfl | rfl | rfl | rfl <;> rw [UInt8.toNat_ofNat'] <;> omega

/-- A character of ASCII is among the bytes of another character only if it is that character. -/
theorem eq_of_byteOf_mem {c d : Char} (hd : IsAscii d)
    (h : byteOf d ∈ String.utf8EncodeChar c) : c = d := by
  by_cases hc : IsAscii c
  · rw [utf8EncodeChar_of_isAscii hc, List.mem_singleton] at h
    rw [← ofNat_byteOf hc, ← h, ofNat_byteOf hd]
  · have hlarge := le_of_mem_utf8EncodeChar hc h
    rw [toNat_byteOf hd] at hlarge
    exact absurd hd (Nat.not_lt_of_le hlarge)

/-- Each character takes at least a byte. -/
theorem length_le_length_flatMap (cs : List Char) :
    cs.length ≤ (cs.flatMap String.utf8EncodeChar).length := by
  induction cs with
  | nil => exact Nat.le_refl 0
  | cons c cs ih =>
      have hpos : 0 < (String.utf8EncodeChar c).length := by
        obtain ⟨b, more, hbytes, -⟩ := utf8Piece_utf8EncodeChar false c []
        rw [hbytes]
        exact Nat.succ_pos _
      rw [List.flatMap_cons, List.length_cons, List.length_append]
      omega

theorem ne_zero_of_mem_utf8EncodeChar {c : Char} (h : c ≠ '\x00') {b : UInt8}
    (hb : b ∈ String.utf8EncodeChar c) : b ≠ 0 := by
  rintro rfl
  have hascii : IsAscii '\x00' := by decide
  exact h (eq_of_byteOf_mem hascii hb)

/-- The first bytes of a text are those of as many of its first characters. -/
theorem take_flatMap_subset (n : Nat) (cs : List Char) :
    (cs.flatMap String.utf8EncodeChar).take n ⊆ (cs.take n).flatMap String.utf8EncodeChar := by
  intro b hb
  rcases Nat.lt_or_ge cs.length n with hshort | hlong
  · rw [List.take_of_length_le (Nat.le_of_lt hshort)]
    exact List.mem_of_mem_take hb
  · have henough : n ≤ ((cs.take n).flatMap String.utf8EncodeChar).length :=
      calc n = (cs.take n).length := (List.length_take_of_le hlong).symm
        _ ≤ ((cs.take n).flatMap String.utf8EncodeChar).length := length_le_length_flatMap _
    rw [← List.take_append_drop n cs, List.flatMap_append,
      List.take_append_of_le_length henough] at hb
    exact List.mem_of_mem_take hb

end OscalValidation.Text
