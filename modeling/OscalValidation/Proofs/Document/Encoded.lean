import OscalValidation.Proofs.Document.Detection
import OscalValidation.Proofs.Json.RoundTrip

set_option autoImplicit false

/-! # Texts and their bytes

A text and its bytes in UTF-8 show the same representation, unless the padding in front takes up
all the bytes that are looked at (`ofBytes?_encode`). Where a text begins plainly, its bytes hold
the document that the text holds (`readBytes_encode`); where it does not, the text or its bytes
hold no object (`not_obj_of_zero`, `not_obj_of_marks`).
-/

namespace OscalValidation

open Text

/-! ## Decoding a part of the bytes of a text -/

namespace Text

theorem decodeLenient_utf8EncodeChar (c : Char) (rest : Bytes) :
    (decodeLenient (String.utf8EncodeChar c ++ rest)).toList =
      c :: (decodeLenient rest).toList := by
  obtain ⟨b, more, hbytes, hpiece⟩ := utf8Piece_utf8EncodeChar false c rest
  rw [hbytes, List.cons_append, decodeLenient, decodeLenient, String.toList_ofList,
    String.toList_ofList, piecesFrom]
  simp only [Encoding.piece, hpiece, Piece.length, Nat.add_sub_cancel, List.filterMap_cons]
  rw [piecesFrom_append]

theorem decodeLenient_flatMap (cs : List Char) (rest : Bytes) :
    (decodeLenient (cs.flatMap String.utf8EncodeChar ++ rest)).toList =
      cs ++ (decodeLenient rest).toList := by
  induction cs with
  | nil => rfl
  | cons c cs ih =>
      rw [List.flatMap_cons, List.append_assoc, decodeLenient_utf8EncodeChar, ih]
      rfl

/-- A character of ASCII that bytes decode to is one of them. -/
theorem byteOf_mem_of_pieces {bytes : Bytes} {c : Char} (hc : IsAscii c) {skip : Nat}
    (h : c ∈ (piecesFrom .utf8 false skip bytes).filterMap fun
      | (.char c _, _) => some c
      | (.fault _ _, _) => none) : byteOf c ∈ bytes := by
  induction bytes generalizing skip with
  | nil => simp [piecesFrom] at h
  | cons b rest ih =>
      cases skip with
      | succ skip => exact List.mem_cons_of_mem b (ih h)
      | zero =>
          rw [piecesFrom] at h
          cases hpiece : utf8Piece false b rest with
          | fault reason length =>
              simp only [Encoding.piece, hpiece, List.filterMap_cons] at h
              exact List.mem_cons_of_mem b (ih h)
          | char d length =>
              simp only [Encoding.piece, hpiece, List.filterMap_cons, List.mem_cons] at h
              rcases h with rfl | h
              · rw [(eq_byteOf_of_utf8Piece hpiece hc).1]
                exact List.mem_cons_self
              · exact List.mem_cons_of_mem b (ih h)

theorem byteOf_mem_of_decodeLenient {bytes : Bytes} {c : Char} (hc : IsAscii c)
    (h : c ∈ (decodeLenient bytes).toList) : byteOf c ∈ bytes := by
  rw [decodeLenient, String.toList_ofList] at h
  exact byteOf_mem_of_pieces hc h

end Text

/-! ## What a text and its bytes show -/

namespace Representation

/-- What stands before the first significant character of a text. -/
def padding (s : String) : List Char := s.toList.takeWhile isPadding

/-- **The first significant character is near:** the bytes before it are fewer than those that are
looked at. -/
def isNear (s : String) : Bool := (encode (String.ofList (padding s))).length < headLength

/-- The characters that show a representation. -/
def isMark (c : Char) : Bool := c == '<' || c == '{' || c == '['

theorem isAscii_of_isMark {c : Char} (hc : isMark c = true) : IsAscii c := by
  simp only [isMark, Bool.or_eq_true, beq_iff_eq] at hc
  rcases hc with (rfl | rfl) | rfl <;> decide

theorem isMark_of_isPadding {c : Char} (hc : isPadding c = true) : isMark c = false := by
  simp only [isPadding, Bool.or_eq_true, beq_iff_eq] at hc
  rcases hc with (((rfl | rfl) | rfl) | rfl) | rfl <;> decide

/-- Padding in front makes no difference. -/
theorem ofHead?_padding_append {pads : List Char} (hpads : ∀ c ∈ pads, isPadding c = true)
    (rest : List Char) : ofHead? (pads ++ rest) = ofHead? rest := by
  rw [ofHead?, ofHead?, List.dropWhile_append_of_pos hpads]

/-- The first significant character alone shows the representation. -/
theorem ofHead?_cons {c : Char} (hc : isPadding c = false) (rest : List Char) :
    ofHead? (c :: rest) = ofHead? [c] := by
  rw [ofHead?, ofHead?, List.dropWhile_cons_of_neg (by simp [hc]),
    List.dropWhile_cons_of_neg (by simp [hc])]
  split
  · next heq => cases heq; rfl
  · next heq => cases heq; rfl
  · next heq => cases heq; rfl
  · next hxml hobject hlist =>
    have hne : c ≠ '<' ∧ c ≠ '{' ∧ c ≠ '[' := by
      refine ⟨?_, ?_, ?_⟩ <;> rintro rfl
      exacts [hxml _ rfl, hobject _ rfl, hlist _ rfl]
    obtain ⟨hxml, hobject, hlist⟩ := hne
    simp [hxml, hobject, hlist]

/-- What has none of the characters that show one shows no representation. -/
theorem ofHead?_eq_none {head : List Char} (h : ∀ c ∈ head, isMark c = false) :
    ofHead? head = none := by
  rw [ofHead?]
  have hafter : ∀ c ∈ head.dropWhile isPadding, isMark c = false := fun c hc =>
    h c ((List.dropWhile_suffix isPadding).subset hc)
  split
  · next heq => exact absurd (hafter '<' (by simp [heq])) (by decide)
  · next heq => exact absurd (hafter '{' (by simp [heq])) (by decide)
  · next heq => exact absurd (hafter '[' (by simp [heq])) (by decide)
  · rfl

theorem ofHead?_decodeLenient_eq_none {bytes : Bytes}
    (h : ∀ c, isMark c = true → byteOf c ∉ bytes) :
    ofHead? (decodeLenient bytes).toList = none := by
  apply ofHead?_eq_none
  intro c hc
  rw [Bool.eq_false_iff]
  intro hmark
  exact h c hmark (byteOf_mem_of_decodeLenient (isAscii_of_isMark hmark) hc)

/-- The bytes of padding have no byte of a character that shows a representation. -/
theorem byteOf_not_mem_padding {pads : List Char} (hpads : ∀ c ∈ pads, isPadding c = true)
    {c : Char} (hc : isMark c = true) : byteOf c ∉ pads.flatMap String.utf8EncodeChar := by
  intro hmem
  obtain ⟨d, hd, hbyte⟩ := List.mem_flatMap.mp hmem
  have heq : d = c := eq_of_byteOf_mem (isAscii_of_isMark hc) hbyte
  rw [heq] at hd
  rw [isMark_of_isPadding (hpads c hd)] at hc
  cases hc

/-- The first bytes of a text show what its first character shows, be it whole or cut off. -/
theorem ofHead?_decodeLenient_take {c : Char} (hc : isPadding c = false) (rest : List Char)
    {n : Nat} (hn : 0 < n) :
    ofHead? (decodeLenient (((c :: rest).flatMap String.utf8EncodeChar).take n)).toList =
      ofHead? [c] := by
  rw [List.flatMap_cons]
  rcases Nat.lt_or_ge n (String.utf8EncodeChar c).length with hcut | hwhole
  · -- a character that is cut off is not of ASCII
    have hascii : ¬ IsAscii c := by
      intro hascii
      rw [utf8EncodeChar_of_isAscii hascii, List.length_singleton] at hcut
      omega
    have hmark : ∀ d, isMark d = true → byteOf d ∉ String.utf8EncodeChar c := by
      intro d hd hmem
      rw [eq_of_byteOf_mem (isAscii_of_isMark hd) hmem] at hascii
      exact hascii (isAscii_of_isMark hd)
    rw [List.take_append_of_le_length (Nat.le_of_lt hcut),
      ofHead?_decodeLenient_eq_none fun d hd hmem => hmark d hd (List.mem_of_mem_take hmem)]
    symm
    apply ofHead?_eq_none
    intro d hd
    rw [List.mem_singleton.mp hd, Bool.eq_false_iff]
    exact fun hd => hascii (isAscii_of_isMark hd)
  · obtain ⟨k, rfl⟩ := Nat.exists_eq_add_of_le hwhole
    rw [List.take_length_add_append, decodeLenient_utf8EncodeChar]
    exact ofHead?_cons hc _

theorem isPadding_of_mem_padding {s : String} {c : Char} (hc : c ∈ padding s) :
    isPadding c = true :=
  List.mem_takeWhile_imp hc

/-- **The bytes of a text show what the text shows** if the first significant character is near,
and else nothing. -/
theorem ofBytes?_encode (s : String) :
    ofBytes? (encode s) = if isNear s then ofText? s else none := by
  have hpads : ∀ c ∈ padding s, isPadding c = true := fun c hc => isPadding_of_mem_padding hc
  have hsplit : s.toList = padding s ++ s.toList.dropWhile isPadding :=
    List.takeWhile_append_dropWhile.symm
  have hnear : isNear s = true ↔
      ((padding s).flatMap String.utf8EncodeChar).length < headLength := by
    rw [isNear, encode_eq_flatMap, String.toList_ofList, decide_eq_true_eq]
  have hbefore := length_le_length_flatMap (padding s)
  rw [ofBytes?, ofText?, encode_eq_flatMap, hsplit, List.flatMap_append]
  by_cases hlength : ((padding s).flatMap String.utf8EncodeChar).length < headLength
  · -- the padding is decoded as a whole
    obtain ⟨n, hn⟩ := Nat.exists_eq_add_of_lt hlength
    obtain ⟨k, hk⟩ := Nat.exists_eq_add_of_lt (Nat.lt_of_le_of_lt hbefore hlength)
    rw [if_pos (hnear.mpr hlength)]
    rw [show headLength = ((padding s).flatMap String.utf8EncodeChar).length + (n + 1) by omega,
      List.take_length_add_append, decodeLenient_flatMap, ofHead?_padding_append hpads]
    rw [show ((padding s).flatMap String.utf8EncodeChar).length + (n + 1) =
        (padding s).length + (k + 1) by omega,
      List.take_length_add_append, ofHead?_padding_append hpads]
    cases hrest : s.toList.dropWhile isPadding with
    | nil => rfl
    | cons c rest =>
        have hc : isPadding c = false := by
          have hhead := List.head?_dropWhile_not isPadding s.toList
          rw [hrest] at hhead
          simpa using hhead
        rw [ofHead?_decodeLenient_take hc rest (Nat.succ_pos n), List.take_succ_cons]
        exact (ofHead?_cons hc _).symm
  · -- all that is looked at is padding, the last mark of it perhaps cut off
    rw [if_neg fun h => hlength (hnear.mp h),
      List.take_append_of_le_length (Nat.le_of_not_lt hlength)]
    exact ofHead?_decodeLenient_eq_none fun c hc hmem =>
      byteOf_not_mem_padding hpads hc (List.mem_of_mem_take hmem)

end Representation

/-! ## What a text and its bytes hold -/

namespace Json

/-- **The text begins plainly:** with at most one byte order mark, and without a zero among its
first two characters if there is none. -/
def beginsPlainly : List Char → Bool
  | '\uFEFF' :: rest => rest.head? != some '\uFEFF'
  | c :: d :: _ => c != '\x00' && d != '\x00'
  | _ => true

/-- Behind a byte order mark stands the text that the bytes hold. -/
theorem readBytes_of_mark {s : String} {rest : List Char} (hs : s.toList = '\uFEFF' :: rest) :
    readBytes (encode s) = (readDecoded (String.ofList rest)).mapError .read := by
  have hbytes : encode s = 0xEF :: 0xBB :: 0xBF :: encode (String.ofList rest) := by
    rw [encode_eq_flatMap, encode_eq_flatMap, hs, String.toList_ofList]
    rfl
  have hdetect : detectEncoding (encode s) = (.utf8, encode (String.ofList rest), 0) := by
    rw [hbytes]
    rfl
  rw [readBytes, hdetect]
  dsimp only
  rw [decode_encode]

/-- Bytes that are taken for UTF-8 as they are hold the text. -/
theorem readBytes_of_utf8 {s : String} (h : detectEncoding (encode s) = (.utf8, encode s, 0)) :
    readBytes (encode s) = (readDecoded s).mapError .read := by
  rw [readBytes, h]
  dsimp only
  rw [decode_encode]

theorem dropWhile_eq_self {cs : List Char} (h : cs.head? ≠ some '\uFEFF') :
    cs.dropWhile (· == '\uFEFF') = cs := by
  cases cs with
  | nil => rfl
  | cons c cs => exact List.dropWhile_cons_of_neg (by simpa using h)

/-- Without a byte order mark a text begins plainly if its first two characters are not zero, or
zero is all of it. -/
theorem beginsPlainly_cases {cs : List Char} (hmark : cs.head? ≠ some '\uFEFF')
    (h : beginsPlainly cs = true) : cs = ['\x00'] ∨ ∀ c ∈ cs.take 2, c ≠ '\x00' := by
  unfold beginsPlainly at h
  split at h
  · exact absurd rfl hmark
  · next c d rest _ =>
    rw [Bool.and_eq_true, bne_iff_ne, bne_iff_ne] at h
    exact Or.inr (by simpa using h)
  · next hfew =>
    -- there is at most one character
    rcases cs with _ | ⟨c, _ | ⟨d, rest⟩⟩
    · simp
    · by_cases hc : c = '\x00'
      · exact Or.inl (by rw [hc])
      · exact Or.inr (by simpa using hc)
    · exact absurd rfl (hfew c d rest)

/-- A text that does not begin plainly has two byte order marks in front, or a zero among its first
two characters. -/
theorem not_beginsPlainly_cases {cs : List Char} (h : ¬ beginsPlainly cs = true) :
    (∃ rest, cs = '\uFEFF' :: '\uFEFF' :: rest) ∨
      ∃ c d rest, cs = c :: d :: rest ∧ c ≠ '\uFEFF' ∧ (c = '\x00' ∨ d = '\x00') := by
  unfold beginsPlainly at h
  split at h
  · next rest =>
    rw [bne_iff_ne, not_not] at h
    obtain ⟨rest, rfl⟩ := List.head?_eq_some_iff.mp h
    exact Or.inl ⟨rest, rfl⟩
  · next c d rest hmark =>
    rw [Bool.and_eq_true, bne_iff_ne, bne_iff_ne, not_and_or, not_not, not_not] at h
    refine Or.inr ⟨c, d, rest, rfl, ?_, h⟩
    rintro rfl
    exact hmark rfl
  · exact absurd rfl h

theorem detectEncoding_of_beginsPlainly {s : String} (hmark : s.toList.head? ≠ some '\uFEFF')
    (h : beginsPlainly s.toList = true) : detectEncoding (encode s) = (.utf8, encode s, 0) := by
  rcases beginsPlainly_cases hmark h with hs | hzero
  · have hbytes : encode s = [0] := by
      rw [encode_eq_flatMap, hs]
      rfl
    rw [hbytes]
    rfl
  · exact detectEncoding_encode hmark hzero

/-- **A text that begins plainly holds what its bytes hold.** -/
theorem readBytes_encode {s : String} (h : beginsPlainly s.toList = true) :
    readBytes (encode s) =
      (readDecoded (String.ofList (s.toList.dropWhile (· == '\uFEFF')))).mapError .read := by
  by_cases hmark : s.toList.head? = some '\uFEFF'
  · obtain ⟨rest, hs⟩ := List.head?_eq_some_iff.mp hmark
    have hrest : rest.head? ≠ some '\uFEFF' := by
      rw [hs, beginsPlainly, bne_iff_ne] at h
      exact h
    rw [readBytes_of_mark hs, hs, List.dropWhile_cons_of_pos rfl, dropWhile_eq_self hrest]
  · rw [readBytes_of_utf8 (detectEncoding_of_beginsPlainly hmark h), dropWhile_eq_self hmark,
      String.ofList_toList]

/-! ## Texts that do not begin plainly -/

/-- A document that begins with something else is no object. -/
theorem not_obj_of_first {cs : List Char} {c : Char} (hspace : isSpace c = false) (hbrace : c ≠ '{')
    (members : List (String × Json)) : readDecoded (String.ofList (c :: cs)) ≠ .ok (.obj members) := by
  intro h
  obtain ⟨blanks, after, hbegins, hblanks⟩ := begins_of_readDecoded h
  rw [String.toList_ofList] at hbegins
  cases blanks with
  | nil => exact hbrace (List.cons_eq_cons.mp hbegins).1
  | cons blank blanks =>
      have hfirst := hblanks blank List.mem_cons_self
      rw [← (List.cons_eq_cons.mp hbegins).1, hspace] at hfirst
      cases hfirst

/-- An object has no zero after its opening brace. -/
theorem not_obj_of_brace_zero {cs : List Char} (members : List (String × Json)) :
    readDecoded (String.ofList ('{' :: '\x00' :: cs)) ≠ .ok (.obj members) := by
  have hstop : ∃ stop, readDocument ('{' :: '\x00' :: cs) = .error stop := ⟨_, rfl⟩
  obtain ⟨stop, hstop⟩ := hstop
  rw [readDecoded, String.toList_ofList, hstop]
  intro h
  cases stop <;> cases h

/-- **Behind two byte order marks the bytes of a text hold no object.** -/
theorem not_obj_of_marks {s : String} {rest : List Char}
    (hs : s.toList = '\uFEFF' :: '\uFEFF' :: rest) (members : List (String × Json)) :
    readBytes (encode s) ≠ .ok (.obj members) := by
  intro h
  rw [readBytes_of_mark hs, mapError_eq_ok_iff] at h
  exact not_obj_of_first (by decide) (by decide) members h

/-- **A text with a zero among its first two characters holds no object.** -/
theorem not_obj_of_zero {s : String} {c d : Char} {rest : List Char} (hs : s.toList = c :: d :: rest)
    (hzero : c = '\x00' ∨ d = '\x00') (members : List (String × Json)) :
    readDecoded s ≠ .ok (.obj members) := by
  intro h
  have hspace : ∀ blank, isSpace blank = true → blank ≠ '\x00' := by
    rintro blank hblank rfl
    exact absurd hblank (by decide)
  obtain ⟨blanks, after, hbegins, hblanks⟩ := begins_of_readDecoded h
  rw [hs] at hbegins
  rcases blanks with _ | ⟨blank, _ | ⟨blank', blanks⟩⟩
  · -- the zero comes right after the brace
    obtain ⟨rfl, -⟩ := List.cons_eq_cons.mp hbegins
    obtain rfl : d = '\x00' := hzero.resolve_left (by decide)
    rw [← String.ofList_toList (s := s), hs] at h
    exact not_obj_of_brace_zero members h
  · obtain ⟨rfl, htail⟩ := List.cons_eq_cons.mp hbegins
    obtain ⟨rfl, -⟩ := List.cons_eq_cons.mp htail
    exact hzero.elim (hspace c (hblanks c (by simp))) (by decide)
  · obtain ⟨rfl, htail⟩ := List.cons_eq_cons.mp hbegins
    obtain ⟨rfl, -⟩ := List.cons_eq_cons.mp htail
    exact hzero.elim (hspace c (hblanks c (by simp))) (hspace d (hblanks d (by simp)))

end Json

end OscalValidation
