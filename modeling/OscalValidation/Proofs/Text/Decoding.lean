import OscalValidation.Text.Encoding

set_option autoImplicit false

/-! # How decoded texts begin

A character that every encoding shares with ASCII shows in the bytes it is decoded from: as one
byte, or as one byte among zero bytes. Main statements: the bytes of a text that begins with one
such character (`bytes_of_decode`) or with several (`bytes_of_joinPieces`), what a lenient decoder
makes of them (`decodeLenient_map`), and what the bytes of a text tell about its first characters
(`prefix_of_flatMap`, `mark_of_flatMap`).
-/

namespace OscalValidation.Text

/-! ## ASCII characters -/

/-- **The character is one of ASCII.** -/
def IsAscii (c : Char) : Prop := c.toNat < 128

instance (c : Char) : Decidable (IsAscii c) := inferInstanceAs (Decidable (c.toNat < 128))

/-- The byte of an ASCII character. -/
def byteOf (c : Char) : UInt8 := UInt8.ofNat c.toNat

theorem toNat_ofNat {n : Nat} (h : n.isValidChar) : (Char.ofNat n).toNat = n := by
  unfold Char.ofNat
  rw [dif_pos h]
  rfl

theorem toNat_byteOf {c : Char} (h : IsAscii c) : (byteOf c).toNat = c.toNat := by
  unfold IsAscii at h
  rw [byteOf, UInt8.toNat_ofNat']
  omega

theorem byteOf_eq_of_toNat {c : Char} {b : UInt8} (h : c.toNat = b.toNat) : byteOf c = b := by
  rw [byteOf, h]
  exact UInt8.ofNat_toNat

/-- A byte is the character with its number in the encodings that have a byte a character. -/
theorem toNat_ofNat_toNat (b : UInt8) : (Char.ofNat b.toNat).toNat = b.toNat := by
  have hb := b.toNat_lt
  exact toNat_ofNat (Or.inl (by omega))

theorem ofNat_byteOf {c : Char} (h : IsAscii c) : Char.ofNat (byteOf c).toNat = c := by
  rw [toNat_byteOf h, Char.ofNat_toNat]

/-! ## One character of UTF-8 -/

theorem utf8Piece_of_lt (surrogates : Bool) {b : UInt8} (h : b < 0x80) (rest : Bytes) :
    utf8Piece surrogates b rest = .char (Char.ofNat b.toNat) 1 := by
  have hlength : lengthFromFirst b = 1 := by rw [lengthFromFirst, if_pos h]
  simp only [utf8Piece, hlength]

/-- Characters of several bytes are none of ASCII. -/
theorem not_isAscii_charOfCode {code : Nat} (hlow : 128 ≤ code) (hhigh : code < 0x110000) :
    ¬ IsAscii (charOfCode code) := by
  unfold IsAscii charOfCode
  split
  · decide
  · next h =>
    rw [toNat_ofNat]
    · omega
    · unfold Nat.isValidChar
      omega

theorem lengthFromFirst_cases (b : UInt8) :
    (b.toNat < 128 ∧ lengthFromFirst b = 1) ∨
      (194 ≤ b.toNat ∧ b.toNat < 224 ∧ lengthFromFirst b = 2) ∨
      (224 ≤ b.toNat ∧ b.toNat < 240 ∧ lengthFromFirst b = 3) ∨
      (240 ≤ b.toNat ∧ b.toNat < 245 ∧ lengthFromFirst b = 4) ∨ lengthFromFirst b = 0 := by
  simp only [lengthFromFirst, UInt8.lt_iff_toNat_lt, UInt8.reduceToNat]
  by_cases h1 : b.toNat < 128
  · simp [h1]
  by_cases h2 : b.toNat < 194
  · simp [h1, h2]
  by_cases h3 : b.toNat < 224
  · simp [h1, h2, h3]
    omega
  by_cases h4 : b.toNat < 240
  · simp [h1, h2, h3, h4]
    omega
  by_cases h5 : b.toNat < 245
  · simp [h1, h2, h3, h4, h5]
    omega
  · simp [h1, h2, h3, h4, h5]

/-- What the byte after the first tells about the number of a character. -/
theorem bounds_of_secondByteOk {surrogates : Bool} {first second : UInt8}
    (h : secondByteOk surrogates first second = true) :
    (first.toNat = 224 → 32 ≤ payload second) ∧ (first.toNat = 240 → 16 ≤ payload second) ∧
      (first.toNat = 244 → payload second < 16) := by
  simp only [secondByteOk, isContinuation, Bool.and_eq_true, decide_eq_true_eq,
    UInt8.le_iff_toNat_le, UInt8.lt_iff_toNat_lt, UInt8.reduceToNat] at h
  obtain ⟨⟨hlow, hhigh⟩, h⟩ := h
  unfold payload
  have hfirst : ∀ n : UInt8, first.toNat = n.toNat → first = n := fun n hn => UInt8.toNat_inj.mp hn
  refine ⟨fun heq => ?_, fun heq => ?_, fun heq => ?_⟩
  · rw [hfirst 0xE0 heq] at h
    simp at h
    omega
  · rw [hfirst 0xF0 heq] at h
    simp at h
    omega
  · rw [hfirst 0xF4 heq] at h
    simp at h
    omega

theorem payload_lt (b : UInt8) : payload b < 64 := Nat.mod_lt _ (by omega)

/-- **An ASCII character of UTF-8 is its byte.** -/
theorem eq_byteOf_of_utf8Piece {surrogates : Bool} {b : UInt8} {rest : Bytes} {c : Char}
    {length : Nat} (h : utf8Piece surrogates b rest = .char c length) (hc : IsAscii c) :
    b = byteOf c ∧ length = 1 := by
  rcases lengthFromFirst_cases b with
    ⟨hb, hl⟩ | ⟨hlow, hhigh, hl⟩ | ⟨hlow, hhigh, hl⟩ | ⟨hlow, hhigh, hl⟩ | hl
  · simp only [utf8Piece, hl] at h
    cases h
    exact ⟨(byteOf_eq_of_toNat (toNat_ofNat_toNat b)).symm, rfl⟩
  · -- two bytes
    cases rest with
    | nil => simp [utf8Piece, hl] at h
    | cons b' rest =>
        simp only [utf8Piece, hl] at h
        split at h
        · cases h
          have hp := payload_lt b'
          unfold IsAscii at hc
          rw [toNat_ofNat] at hc
          · omega
          · unfold Nat.isValidChar
            omega
        · cases h
  · -- three bytes
    cases rest with
    | nil => simp [utf8Piece, hl] at h
    | cons b' rest =>
        cases rest with
        | nil =>
            simp only [utf8Piece, hl] at h
            split at h <;> cases h
        | cons b'' rest =>
            simp only [utf8Piece, hl] at h
            split at h
            · cases h
            · next hok =>
              split at h
              · cases h
                rw [Bool.not_eq_true', Bool.not_eq_false] at hok
                obtain ⟨hE0, -, -⟩ := bounds_of_secondByteOk hok
                have hp' := payload_lt b'
                have hp'' := payload_lt b''
                refine absurd hc (not_isAscii_charOfCode ?_ ?_) <;> omega
              · cases h
  · -- four bytes
    cases rest with
    | nil => simp [utf8Piece, hl] at h
    | cons b' rest =>
        simp only [utf8Piece, hl] at h
        split at h
        · cases h
        · next hok =>
          rw [Bool.not_eq_true', Bool.not_eq_false] at hok
          obtain ⟨-, hF0, hF4⟩ := bounds_of_secondByteOk hok
          split at h
          · cases h
          · next b'' rest' =>
            split at h
            · cases h
            · split at h
              · cases h
              · next last rest'' =>
                split at h
                · cases h
                  have hp' := payload_lt b'
                  have hp'' := payload_lt b''
                  have hlast := payload_lt last
                  unfold IsAscii at hc
                  rw [toNat_ofNat] at hc
                  · omega
                  · unfold Nat.isValidChar
                    omega
                · cases h
  · simp [utf8Piece, hl] at h

/-! ## One character of any encoding -/

/-- The bytes of an ASCII character. -/
def Encoding.asciiBytes : Encoding → Char → Bytes
  | .utf8, c | .latin1, c | .ascii, c => [byteOf c]
  | .utf16 false, c => [byteOf c, 0]
  | .utf16 true, c => [0, byteOf c]
  | .utf32 false, c => [byteOf c, 0, 0, 0]
  | .utf32 true, c => [0, 0, 0, byteOf c]

/-- An ASCII character in a code unit is the number of the unit. -/
theorem toNat_eq_of_charOfCode {code : Nat} (hcode : code < 0x110000)
    (hc : IsAscii (charOfCode code)) : (charOfCode code).toNat = code := by
  have hlow : code < 128 := by
    rcases Nat.lt_or_ge code 128 with h | h
    · exact h
    · exact absurd hc (not_isAscii_charOfCode h hcode)
  unfold charOfCode
  rw [if_neg (by omega), toNat_ofNat]
  exact Or.inl (by omega)

/-- The bytes of a number below 128 are all zero but one. -/
theorem eq_of_unitOfBytes_two {bigEndian : Bool} {b b' : UInt8} {c : Char}
    (h : c.toNat = unitOfBytes bigEndian [b, b']) (hc : IsAscii c) :
    [b, b'] = (Encoding.utf16 bigEndian).asciiBytes c := by
  unfold IsAscii at hc
  have hb := b.toNat_lt
  have hb' := b'.toNat_lt
  cases bigEndian with
  | false =>
      have hunit : unitOfBytes false [b, b'] = b'.toNat * 256 + b.toNat := by simp [unitOfBytes]
      have hzero : b' = 0 := UInt8.toNat_inj.mp (show b'.toNat = 0 by omega)
      have hbyte : byteOf c = b := byteOf_eq_of_toNat (by omega)
      rw [Encoding.asciiBytes, hzero, hbyte]
  | true =>
      have hunit : unitOfBytes true [b, b'] = b.toNat * 256 + b'.toNat := by simp [unitOfBytes]
      have hzero : b = 0 := UInt8.toNat_inj.mp (show b.toNat = 0 by omega)
      have hbyte : byteOf c = b' := byteOf_eq_of_toNat (by omega)
      rw [Encoding.asciiBytes, hzero, hbyte]

theorem eq_of_unitOfBytes_four {bigEndian : Bool} {b₁ b₂ b₃ b₄ : UInt8} {c : Char}
    (h : c.toNat = unitOfBytes bigEndian [b₁, b₂, b₃, b₄]) (hc : IsAscii c) :
    [b₁, b₂, b₃, b₄] = (Encoding.utf32 bigEndian).asciiBytes c := by
  unfold IsAscii at hc
  have h1 := b₁.toNat_lt
  have h2 := b₂.toNat_lt
  have h3 := b₃.toNat_lt
  have h4 := b₄.toNat_lt
  have hzero : ∀ b : UInt8, b.toNat = 0 → b = 0 := fun b hb => UInt8.toNat_inj.mp hb
  cases bigEndian with
  | false =>
      have hunit : unitOfBytes false [b₁, b₂, b₃, b₄] =
          ((b₄.toNat * 256 + b₃.toNat) * 256 + b₂.toNat) * 256 + b₁.toNat := by
        simp [unitOfBytes]
      have hbyte : byteOf c = b₁ := byteOf_eq_of_toNat (by omega)
      rw [Encoding.asciiBytes, hbyte, hzero b₂ (by omega), hzero b₃ (by omega),
        hzero b₄ (by omega)]
  | true =>
      have hunit : unitOfBytes true [b₁, b₂, b₃, b₄] =
          ((b₁.toNat * 256 + b₂.toNat) * 256 + b₃.toNat) * 256 + b₄.toNat := by
        simp [unitOfBytes]
      have hbyte : byteOf c = b₄ := byteOf_eq_of_toNat (by omega)
      rw [Encoding.asciiBytes, hbyte, hzero b₁ (by omega), hzero b₂ (by omega),
        hzero b₃ (by omega)]

/-- An ASCII character of UTF-16 is its byte and a zero byte. -/
theorem eq_of_utf16Piece {bigEndian : Bool} {bytes : Bytes} {c : Char} {length : Nat}
    (h : utf16Piece bigEndian bytes = .char c length) (hc : IsAscii c) :
    ∃ rest, bytes = (Encoding.utf16 bigEndian).asciiBytes c ++ rest := by
  unfold utf16Piece at h
  dsimp only at h
  match bytes with
  | [] => simp at h
  | [b] => simp at h
  | b :: b' :: rest =>
      have hb := b.toNat_lt
      have hb' := b'.toNat_lt
      have hsmall : unitOfBytes bigEndian [b, b'] < 65536 := by
        cases bigEndian <;> simp [unitOfBytes] <;> omega
      split at h
      · cases h
      · split at h
        · -- two surrogates denote no character of ASCII
          rw [Piece.char.injEq] at h
          obtain ⟨rfl, -⟩ := h
          unfold IsAscii at hc
          rw [toNat_ofNat] at hc
          · omega
          · unfold Nat.isValidChar
            omega
        · rw [Piece.char.injEq] at h
          obtain ⟨rfl, -⟩ := h
          have hcode : unitOfBytes bigEndian [b, b'] < 0x110000 := by omega
          have hnat := toNat_eq_of_charOfCode hcode hc
          exact ⟨rest, congrArg (· ++ rest) (eq_of_unitOfBytes_two hnat hc)⟩

/-- An ASCII character of UTF-32 is its byte and three zero bytes. -/
theorem eq_of_utf32Piece {bigEndian : Bool} {bytes : Bytes} {c : Char} {length : Nat}
    (h : utf32Piece bigEndian bytes = .char c length) (hc : IsAscii c) :
    ∃ rest, bytes = (Encoding.utf32 bigEndian).asciiBytes c ++ rest := by
  unfold utf32Piece at h
  dsimp only at h
  match bytes with
  | [] | [_] | [_, _] | [_, _, _] => simp at h
  | b₁ :: b₂ :: b₃ :: b₄ :: rest =>
      split at h
      · cases h
      · split at h
        · cases h
        · next hcode =>
          rw [Piece.char.injEq] at h
          obtain ⟨rfl, -⟩ := h
          have hcode : unitOfBytes bigEndian [b₁, b₂, b₃, b₄] < 0x110000 := by simpa using hcode
          have hnat := toNat_eq_of_charOfCode hcode hc
          exact ⟨rest, congrArg (· ++ rest) (eq_of_unitOfBytes_four hnat hc)⟩

/-- **An ASCII character shows in its bytes,** whatever the encoding. -/
theorem Encoding.eq_of_piece {encoding : Encoding} {surrogates : Bool} {b : UInt8} {rest : Bytes}
    {c : Char} {length : Nat} (h : encoding.piece surrogates b rest = .char c length)
    (hc : IsAscii c) : ∃ rest', b :: rest = encoding.asciiBytes c ++ rest' := by
  cases encoding with
  | utf8 =>
      obtain ⟨rfl, -⟩ := eq_byteOf_of_utf8Piece h hc
      exact ⟨rest, rfl⟩
  | utf16 bigEndian => exact eq_of_utf16Piece h hc
  | utf32 bigEndian => exact eq_of_utf32Piece h hc
  | latin1 =>
      rw [piece, Piece.char.injEq] at h
      obtain ⟨rfl, -⟩ := h
      rw [asciiBytes, byteOf_eq_of_toNat (toNat_ofNat_toNat b)]
      exact ⟨rest, rfl⟩
  | ascii =>
      rw [piece] at h
      split at h
      · rw [Piece.char.injEq] at h
        obtain ⟨rfl, -⟩ := h
        rw [asciiBytes, byteOf_eq_of_toNat (toNat_ofNat_toNat b)]
        exact ⟨rest, rfl⟩
      · cases h

/-! ## Whole texts -/

/-- The encoding has a byte for each ASCII character. -/
def Encoding.IsNarrow : Encoding → Prop
  | .utf8 | .latin1 | .ascii => True
  | _ => False

/-- In a narrow encoding the piece of an ASCII character is one byte long. -/
theorem Encoding.IsNarrow.length_eq {encoding : Encoding} (hn : encoding.IsNarrow)
    {surrogates : Bool} {b : UInt8} {rest : Bytes} {c : Char} {length : Nat}
    (h : encoding.piece surrogates b rest = .char c length) (hc : IsAscii c) : length = 1 := by
  cases encoding with
  | utf8 => exact (eq_byteOf_of_utf8Piece h hc).2
  | utf16 | utf32 => cases hn
  | latin1 =>
      rw [piece, Piece.char.injEq] at h
      exact h.2.symm
  | ascii =>
      rw [piece] at h
      split at h
      · rw [Piece.char.injEq] at h
        exact h.2.symm
      · cases h

theorem joinPieces_eq_ok_cons {encoding : Encoding} {total : Nat} {pieces : List (Piece × Bytes)}
    {c : Char} {cs : List Char} (h : joinPieces encoding total pieces = .ok (c :: cs)) :
    ∃ length bytes more, pieces = (.char c length, bytes) :: more ∧
      joinPieces encoding total more = .ok cs := by
  match pieces with
  | [] => simp [joinPieces] at h
  | (.fault _ _, _) :: _ => simp [joinPieces] at h
  | (.char c' length, bytes) :: more =>
      rw [joinPieces] at h
      cases hmore : joinPieces encoding total more with
      | error e =>
          rw [hmore] at h
          cases h
      | ok cs' =>
          rw [hmore] at h
          cases h
          exact ⟨length, bytes, more, rfl, hmore⟩

theorem decode_eq_ok_iff {encoding : Encoding} {surrogates : Bool} {bytes : Bytes} {s : String} :
    decode encoding surrogates bytes = .ok s ↔
      joinPieces encoding bytes.length (piecesFrom encoding surrogates 0 bytes) = .ok s.toList := by
  rw [decode]
  cases joinPieces encoding bytes.length (piecesFrom encoding surrogates 0 bytes) with
  | error e => simp [Except.map]
  | ok cs =>
      simp only [Except.map, Except.ok.injEq]
      constructor
      · rintro rfl
        rw [String.toList_ofList]
      · rintro rfl
        rw [String.ofList_toList]

/-- **The bytes of a text that begins with an ASCII character.** -/
theorem bytes_of_decode {encoding : Encoding} {surrogates : Bool} {bytes : Bytes} {s : String}
    {c : Char} {cs : List Char} (h : decode encoding surrogates bytes = .ok s)
    (hs : s.toList = c :: cs) (hc : IsAscii c) :
    ∃ rest, bytes = encoding.asciiBytes c ++ rest := by
  rw [decode_eq_ok_iff, hs] at h
  obtain ⟨length, from', more, hpieces, -⟩ := joinPieces_eq_ok_cons h
  cases bytes with
  | nil => simp [piecesFrom] at hpieces
  | cons b rest =>
      rw [piecesFrom] at hpieces
      obtain ⟨hpiece, -⟩ := List.cons_eq_cons.mp hpieces
      exact Encoding.eq_of_piece (congrArg Prod.fst hpiece) hc

/-- **The bytes of a text that begins with ASCII characters,** in a narrow encoding. -/
theorem bytes_of_joinPieces {encoding : Encoding} (hn : encoding.IsNarrow) {surrogates : Bool}
    {total : Nat} {bytes : Bytes} {before after : List Char}
    (h : joinPieces encoding total (piecesFrom encoding surrogates 0 bytes) =
      .ok (before ++ after)) (hb : ∀ c ∈ before, IsAscii c) :
    ∃ rest, bytes = before.map byteOf ++ rest ∧
      joinPieces encoding total (piecesFrom encoding surrogates 0 rest) = .ok after := by
  induction before generalizing bytes with
  | nil => exact ⟨bytes, rfl, h⟩
  | cons c before ih =>
      obtain ⟨length, from', more, hpieces, hmore⟩ := joinPieces_eq_ok_cons h
      cases bytes with
      | nil => simp [piecesFrom] at hpieces
      | cons b rest =>
          rw [piecesFrom] at hpieces
          obtain ⟨hpiece, hrest⟩ := List.cons_eq_cons.mp hpieces
          have hchar := congrArg Prod.fst hpiece
          have hc := hb c List.mem_cons_self
          -- the piece is one byte long, so the next piece begins with the next byte
          have hlength : length = 1 := hn.length_eq hchar hc
          obtain ⟨rest', hbytes⟩ := Encoding.eq_of_piece hchar hc
          have hbyte : b = byteOf c := by
            cases encoding with
            | utf16 | utf32 => cases hn
            | _ => exact (List.cons_eq_cons.mp hbytes).1
          dsimp only at hchar hrest
          rw [hchar, hlength] at hrest
          rw [← hrest] at hmore
          obtain ⟨rest'', rfl, hafter⟩ := ih hmore fun c' hc' => hb c' (List.mem_cons_of_mem _ hc')
          exact ⟨rest'', by rw [hbyte]; rfl, hafter⟩

/-! ## Lenient decoding -/

/-- A lenient decoder keeps ASCII characters. -/
theorem decodeLenient_cons {c : Char} (hc : IsAscii c) (rest : Bytes) :
    (decodeLenient (byteOf c :: rest)).toList = c :: (decodeLenient rest).toList := by
  have hlt : byteOf c < 0x80 := by
    rw [UInt8.lt_iff_toNat_lt, toNat_byteOf hc]
    exact hc
  rw [decodeLenient, decodeLenient, piecesFrom, String.toList_ofList, String.toList_ofList]
  simp only [Encoding.piece, utf8Piece_of_lt _ hlt, Piece.length, Nat.sub_self, ofNat_byteOf hc,
    List.filterMap_cons]

theorem decodeLenient_map {cs : List Char} (hcs : ∀ c ∈ cs, IsAscii c) (rest : Bytes) :
    (decodeLenient (cs.map byteOf ++ rest)).toList = cs ++ (decodeLenient rest).toList := by
  induction cs with
  | nil => rfl
  | cons c cs ih =>
      rw [List.map_cons, List.cons_append, decodeLenient_cons (hcs c List.mem_cons_self),
        ih fun c' hc' => hcs c' (List.mem_cons_of_mem _ hc'), List.cons_append]

/-! ## Encoding -/

theorem toList_loop_eq (bytes : ByteArray) (i : Nat) (r : List UInt8) :
    ByteArray.toList.loop bytes i r = r.reverse ++ bytes.data.toList.drop i := by
  fun_induction ByteArray.toList.loop bytes i r with
  | case1 i r h ih =>
      have hi : i < bytes.data.toList.length := by simpa using h
      rw [ih, List.drop_eq_getElem_cons (l := bytes.data.toList) hi]
      simp [ByteArray.get!, h]
  | case2 i r h =>
      rw [List.drop_eq_nil_of_le (by simpa using Nat.le_of_not_lt h), List.append_nil]

/-- The bytes of a text are those of its characters in a row. -/
theorem encode_eq_flatMap (s : String) : encode s = s.toList.flatMap String.utf8EncodeChar := by
  rw [encode, String.toUTF8_eq_toByteArray, ← String.utf8Encode_toList, List.utf8Encode,
    ByteArray.toList, toList_loop_eq, List.reverse_nil, List.nil_append, List.drop_zero,
    List.toList_data_toByteArray]

/-- How a character is encoded, as numbers. -/
theorem utf8EncodeChar_cases (c : Char) :
    (IsAscii c ∧ String.utf8EncodeChar c = [byteOf c]) ∨
    (∃ b b', String.utf8EncodeChar c = [b, b'] ∧ 192 ≤ b.toNat ∧ b.toNat < 224) ∨
    (∃ b b' b'', String.utf8EncodeChar c = [b, b', b''] ∧ 224 ≤ b.toNat ∧ b.toNat < 240 ∧
      c.toNat = (b.toNat - 224) * 4096 + (b'.toNat - 128) * 64 + (b''.toNat - 128)) ∨
    (∃ b more, String.utf8EncodeChar c = b :: more ∧ 240 ≤ b.toNat ∧ b.toNat < 248) := by
  have hv : c.val.toNat = c.toNat := rfl
  unfold String.utf8EncodeChar IsAscii
  simp only [hv]
  by_cases h1 : c.toNat ≤ 127
  · rw [if_pos h1]
    exact Or.inl ⟨by omega, rfl⟩
  rw [if_neg h1]
  by_cases h2 : c.toNat ≤ 2047
  · rw [if_pos h2]
    refine Or.inr (Or.inl ⟨_, _, rfl, ?_, ?_⟩) <;> rw [UInt8.toNat_ofNat'] <;> omega
  rw [if_neg h2]
  by_cases h3 : c.toNat ≤ 65535
  · rw [if_pos h3]
    refine Or.inr (Or.inr (Or.inl ⟨_, _, _, rfl, ?_, ?_, ?_⟩)) <;>
      simp only [UInt8.toNat_ofNat'] <;> omega
  · rw [if_neg h3]
    refine Or.inr (Or.inr (Or.inr ⟨_, _, rfl, ?_, ?_⟩)) <;> rw [UInt8.toNat_ofNat'] <;> omega

/-- A text whose bytes begin with those of ASCII characters begins with these. -/
theorem prefix_of_flatMap {l cs : List Char} {rest : Bytes} (hcs : ∀ c ∈ cs, IsAscii c)
    (h : l.flatMap String.utf8EncodeChar = cs.map byteOf ++ rest) :
    ∃ after, l = cs ++ after ∧ after.flatMap String.utf8EncodeChar = rest := by
  induction cs generalizing l with
  | nil => exact ⟨l, rfl, h⟩
  | cons c cs ih =>
      have hc := hcs c List.mem_cons_self
      have hbyte := toNat_byteOf hc
      cases l with
      | nil => cases h
      | cons c' l =>
          rw [List.flatMap_cons, List.map_cons, List.cons_append] at h
          -- the first byte belongs to no longer character
          rcases utf8EncodeChar_cases c' with ⟨hc', he⟩ | ⟨b, b', he, hb⟩ |
            ⟨b, b', b'', he, hb, -⟩ | ⟨b, more, he, hb, -⟩
          · rw [he] at h
            obtain ⟨hfirst, hrest⟩ := List.cons_eq_cons.mp h
            have hsame : c' = c := by
              rw [← ofNat_byteOf hc', hfirst, ofNat_byteOf hc]
            obtain ⟨after, rfl, hafter⟩ := ih (fun x hx => hcs x (List.mem_cons_of_mem _ hx)) hrest
            exact ⟨after, by rw [hsame]; rfl, hafter⟩
          all_goals
            rw [he] at h
            have hfirst := (List.cons_eq_cons.mp h).1
            unfold IsAscii at hc
            rw [hfirst] at hb
            omega

/-- A text whose bytes begin with a byte order mark begins with one. -/
theorem mark_of_flatMap {l : List Char} {rest : Bytes}
    (h : l.flatMap String.utf8EncodeChar = 0xEF :: 0xBB :: 0xBF :: rest) :
    ∃ after, l = '\uFEFF' :: after ∧ after.flatMap String.utf8EncodeChar = rest := by
  have hEF : (0xEF : UInt8).toNat = 239 := rfl
  cases l with
  | nil => cases h
  | cons c l =>
      rw [List.flatMap_cons] at h
      rcases utf8EncodeChar_cases c with ⟨hc, he⟩ | ⟨b, b', he, hb⟩ |
        ⟨b, b', b'', he, hb, hb', hcode⟩ | ⟨b, more, he, hb, -⟩
      · rw [he] at h
        have hfirst := (List.cons_eq_cons.mp h).1
        have hbyte := toNat_byteOf hc
        rw [hfirst, hEF] at hbyte
        unfold IsAscii at hc
        omega
      · rw [he] at h
        have hfirst := (List.cons_eq_cons.mp h).1
        rw [hfirst, hEF] at hb
        omega
      · -- three bytes determine the character
        rw [he] at h
        simp only [List.cons_append, List.nil_append, List.cons.injEq] at h
        obtain ⟨rfl, rfl, rfl, hrest⟩ := h
        have hmark : c = '\uFEFF' := by
          rw [← Char.ofNat_toNat c, hcode]
          rfl
        exact ⟨l, by rw [hmark], hrest⟩
      · rw [he] at h
        have hfirst := (List.cons_eq_cons.mp h).1
        rw [hfirst, hEF] at hb
        omega

/-- No text has bytes that begin like those of another byte order mark. -/
theorem lt_of_flatMap {l : List Char} {b : UInt8} {rest : Bytes}
    (h : l.flatMap String.utf8EncodeChar = b :: rest) : b.toNat < 248 := by
  cases l with
  | nil => cases h
  | cons c l =>
      rw [List.flatMap_cons] at h
      rcases utf8EncodeChar_cases c with ⟨hc, he⟩ | ⟨b, b', he, hb⟩ |
        ⟨b, b', b'', he, hb, hb', -⟩ | ⟨b, more, he, -, hb⟩ <;>
        rw [he] at h <;> have hfirst := (List.cons_eq_cons.mp h).1
      · have hbyte := toNat_byteOf hc
        unfold IsAscii at hc
        rw [← hfirst]
        omega
      all_goals
        rw [← hfirst]
        omega

end OscalValidation.Text
