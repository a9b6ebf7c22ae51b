import OscalValidation.Document.Representation
import OscalValidation.Json.Bytes
import OscalValidation.Proofs.Document.Beginning
import OscalValidation.Proofs.Text.Decoding

set_option autoImplicit false

/-! # Which representation a content shows

A content that can be read opens with the mark of its representation: behind a byte order mark and
blanks, or hidden behind a zero byte (`Xml.opens_of_readBytes?`, `Json.opens_of_readBytes`). It
shows its representation exactly if the mark is among the part looked at and no zero comes before
it (`ofText?_of_opens`, `ofBytes?_of_opens`).
-/

namespace OscalValidation

open Text

/-! ## Marks -/

namespace Representation

/-- The character that a document in the representation begins with, after blanks. -/
def mark : Representation → Char
  | .xml => '<'
  | .json => '{'

/-- **The mark leads the content:** it is in the part looked at, and no `zero` comes before it. -/
def leads {α : Type} [BEq α] (mark zero : α) (content : List α) : Bool :=
  (content.take headLength).find? (fun x => x == mark || x == zero) == some mark

theorem isAscii_mark (r : Representation) : IsAscii r.mark := by
  cases r <;> decide

/-- The part looked at goes past what stands before a place, or ends in it. -/
theorem take_headLength_cases {α : Type} (before : List α) (first : α) (rest : List α) :
    (before.length < headLength ∧
      ∃ more, (before ++ first :: rest).take headLength = before ++ first :: more) ∨
    (¬ before.length < headLength ∧
      (before ++ first :: rest).take headLength = before.take headLength) := by
  by_cases hlength : before.length < headLength
  · obtain ⟨n, hn⟩ : ∃ n, headLength = before.length + (n + 1) :=
      ⟨headLength - before.length - 1, by omega⟩
    refine Or.inl ⟨hlength, rest.take n, ?_⟩
    rw [hn, List.take_length_add_append, List.take_succ_cons]
  · exact Or.inr ⟨hlength, List.take_append_of_le_length (Nat.le_of_not_lt hlength)⟩

/-- Where the first mark or zero is known, so is whether the mark leads. -/
theorem leads_iff {α : Type} [BEq α] [LawfulBEq α] {mark zero first : α} {before : List α}
    (hbefore : ∀ x ∈ before, x ≠ mark ∧ x ≠ zero) (hfirst : first = mark ∨ first = zero)
    (rest : List α) :
    leads mark zero (before ++ first :: rest) = true ↔
      before.length < headLength ∧ first = mark := by
  have hnone : ∀ part : List α, (∀ x ∈ part, x ∈ before) →
      part.find? (fun x => x == mark || x == zero) = none := by
    intro part hpart
    rw [List.find?_eq_none]
    intro x hx
    obtain ⟨hmark, hzero⟩ := hbefore x (hpart x hx)
    simp [hmark, hzero]
  have hfound : (first == mark || first == zero) = true := by
    rcases hfirst with rfl | rfl <;> simp
  rw [leads, beq_iff_eq]
  rcases take_headLength_cases before first rest with ⟨hlength, more, htake⟩ | ⟨hlength, htake⟩
  · rw [htake, List.find?_append, hnone before fun _ hx => hx, Option.none_or,
      List.find?_cons_of_pos (by simpa using hfound), Option.some.injEq]
    exact ⟨fun h => ⟨hlength, h⟩, fun h => h.2⟩
  · rw [htake, hnone _ fun x hx => List.mem_of_mem_take hx]
    constructor
    · intro h
      cases h
    · exact fun h => absurd h.1 hlength

/-! ## Heads -/

/-- Padding shows nothing. -/
theorem ofHead?_padding {pads : List Char} (hpads : ∀ c ∈ pads, isPadding c = true) :
    ofHead? pads = none := by
  have hnil : pads.dropWhile isPadding = [] := by
    rw [← List.append_nil pads, List.dropWhile_append_of_pos hpads, List.dropWhile_nil]
  rw [ofHead?, hnil]

/-- A mark after padding shows the representation, a zero there shows none. -/
theorem ofHead?_append {r : Representation} {pads rest : List Char} {first : Char}
    (hpads : ∀ c ∈ pads, isPadding c = true) (hfirst : first = r.mark ∨ first = '\x00') :
    ofHead? (pads ++ first :: rest) = if first = r.mark then some r else none := by
  rw [ofHead?, List.dropWhile_append_of_pos hpads]
  rcases hfirst with rfl | rfl
  · rw [if_pos rfl]
    cases r <;> rfl
  · have hne : '\x00' ≠ r.mark := by cases r <;> decide
    rw [if_neg hne]
    rfl

/-! ## Texts -/

/-- **The text opens with the mark** of the representation, or a zero in its place, after
padding. -/
inductive OpensText (r : Representation) : List Char → Prop
  /-- What is before the mark is padding. -/
  | intro {pads rest : List Char} {first : Char} (padding : ∀ c ∈ pads, isPadding c = true)
      (opened : first = r.mark ∨ first = '\x00') : OpensText r (pads ++ first :: rest)

/-- Padding is neither a mark nor zero. -/
theorem ne_of_isPadding {r : Representation} {c : Char} (hc : isPadding c = true) :
    c ≠ r.mark ∧ c ≠ '\x00' := by
  constructor
  · rintro rfl
    cases r <;> exact absurd hc (by decide)
  · rintro rfl
    exact absurd hc (by decide)

/-- **A text that opens with the mark shows the representation exactly if the mark leads.** -/
theorem ofText?_of_opens {r : Representation} {s : String} (h : OpensText r s.toList) :
    ofText? s = if leads r.mark '\x00' s.toList then some r else none := by
  rw [ofText?]
  generalize hcs : s.toList = cs at h ⊢
  obtain ⟨hpads, hfirst⟩ := h
  next pads rest first =>
  have hleads := leads_iff (fun c hc => ne_of_isPadding (hpads c hc)) hfirst rest
  rcases take_headLength_cases pads first rest with ⟨hlength, more, htake⟩ | ⟨hlength, htake⟩
  · rw [htake, ofHead?_append hpads hfirst]
    simp only [hleads, hlength, true_and]
  · rw [htake, ofHead?_padding fun c hc => hpads c (List.mem_of_mem_take hc), if_neg]
    exact fun h => hlength (hleads.mp h).1

/-! ## Bytes -/

/-- Byte order marks, or what a reader of two-byte units takes for one. -/
def orderMarks : List Bytes := [[], [0xEF, 0xBB, 0xBF], [0xFF, 0xFE], [0xFE, 0xFF]]

/-- **The bytes open with the mark** of the representation, or a zero in its place, after a byte
order mark and blanks. -/
inductive OpensBytes (r : Representation) : Bytes → Prop
  /-- What is before the mark is a byte order mark, if any, and blanks. -/
  | intro {lead rest : Bytes} {blanks : List Char} {first : Char} (marked : lead ∈ orderMarks)
      (blank : ∀ c ∈ blanks, Xml.isSpace c = true)
      (opened : first = r.mark ∨ first = '\x00') :
      OpensBytes r (lead ++ (blanks.map byteOf ++ byteOf first :: rest))

/-- A lenient decoder makes padding of byte order marks, or nothing. -/
theorem decodeLenient_lead {lead : Bytes} (hlead : lead ∈ orderMarks) :
    ∃ pads, (∀ c ∈ pads, isPadding c = true) ∧
      ∀ rest, (decodeLenient (lead ++ rest)).toList = pads ++ (decodeLenient rest).toList := by
  simp only [orderMarks, List.mem_cons, List.not_mem_nil, or_false] at hlead
  rcases hlead with rfl | rfl | rfl | rfl
  · exact ⟨[], by simp, fun rest => rfl⟩
  · refine ⟨['\uFEFF'], by simp [isPadding], fun rest => ?_⟩
    rw [decodeLenient, decodeLenient, String.toList_ofList, String.toList_ofList]
    rfl
  · refine ⟨[], by simp, fun rest => ?_⟩
    rw [decodeLenient, decodeLenient, String.toList_ofList, String.toList_ofList]
    rfl
  · refine ⟨[], by simp, fun rest => ?_⟩
    rw [decodeLenient, decodeLenient, String.toList_ofList, String.toList_ofList]
    rfl

theorem isAscii_of_isSpace {c : Char} (hc : Xml.isSpace c = true) : IsAscii c := by
  simp only [Xml.isSpace, Bool.or_eq_true, beq_iff_eq] at hc
  rcases hc with ((rfl | rfl) | rfl) | rfl <;> decide

theorem isPadding_of_isSpace {c : Char} (hc : Xml.isSpace c = true) : isPadding c = true := by
  simp only [Xml.isSpace, Bool.or_eq_true, beq_iff_eq] at hc
  rcases hc with ((rfl | rfl) | rfl) | rfl <;> decide

/-- Among ASCII characters each byte stands for one. -/
theorem byteOf_injOn {c c' : Char} (hc : IsAscii c) (hc' : IsAscii c')
    (h : byteOf c = byteOf c') : c = c' := by
  rw [← ofNat_byteOf hc, h, ofNat_byteOf hc']

theorem ne_byteOf_of_mem_lead {lead : Bytes} {b : UInt8} {c : Char} (hlead : lead ∈ orderMarks)
    (hb : b ∈ lead) (hc : IsAscii c) : b ≠ byteOf c := by
  have hhigh : ∀ lead ∈ orderMarks, ∀ b ∈ lead, 128 ≤ b.toNat := by simp [orderMarks]
  have hlow := hhigh lead hlead b hb
  rintro rfl
  rw [toNat_byteOf hc] at hlow
  exact Nat.not_lt_of_le hlow hc

section Bytes

variable {r : Representation} {lead rest : Bytes} {blanks : List Char} {first : Char}

/-- A mark and what may stand in its place are of ASCII. -/
theorem isAscii_of_opened (hfirst : first = r.mark ∨ first = '\x00') : IsAscii first := by
  rcases hfirst with rfl | rfl
  · exact isAscii_mark r
  · decide

theorem isAscii_of_mem_opening (hblanks : ∀ c ∈ blanks, Xml.isSpace c = true)
    (hfirst : first = r.mark ∨ first = '\x00') {c : Char} (hc : c ∈ blanks ++ [first]) :
    IsAscii c := by
  rcases List.mem_append.mp hc with hc | hc
  · exact isAscii_of_isSpace (hblanks c hc)
  · rw [List.mem_singleton.mp hc]
    exact isAscii_of_opened hfirst

/-- Before the mark stands neither a mark nor a zero. -/
theorem ne_of_mem_before (hlead : lead ∈ orderMarks) (hblanks : ∀ c ∈ blanks, Xml.isSpace c = true)
    {b : UInt8} (hb : b ∈ lead ++ blanks.map byteOf) : b ≠ byteOf r.mark ∧ b ≠ byteOf '\x00' := by
  rcases List.mem_append.mp hb with hb | hb
  · exact ⟨ne_byteOf_of_mem_lead hlead hb (isAscii_mark r),
      ne_byteOf_of_mem_lead hlead hb (by decide)⟩
  · obtain ⟨c, hc, rfl⟩ := List.mem_map.mp hb
    have hascii := isAscii_of_isSpace (hblanks c hc)
    obtain ⟨hmark, hzero⟩ := ne_of_isPadding (r := r) (isPadding_of_isSpace (hblanks c hc))
    exact ⟨fun h => hmark (byteOf_injOn hascii (isAscii_mark r) h),
      fun h => hzero (byteOf_injOn hascii (by decide) h)⟩

/-- Byte order marks and blanks decode to padding, whatever follows. -/
theorem decodeLenient_before (hlead : lead ∈ orderMarks)
    (hblanks : ∀ c ∈ blanks, Xml.isSpace c = true) :
    ∃ pads, (∀ c ∈ pads, isPadding c = true) ∧ ∀ rest,
      (decodeLenient (lead ++ (blanks.map byteOf ++ rest))).toList =
        pads ++ (decodeLenient rest).toList := by
  obtain ⟨pads, hpads, hdecoded⟩ := decodeLenient_lead hlead
  refine ⟨pads ++ blanks, fun c hc => ?_, fun rest => ?_⟩
  · rcases List.mem_append.mp hc with hc | hc
    · exact hpads c hc
    · exact isPadding_of_isSpace (hblanks c hc)
  · rw [hdecoded, decodeLenient_map fun c hc => isAscii_of_isSpace (hblanks c hc),
      List.append_assoc]

end Bytes

/-- **Bytes that open with the mark show the representation exactly if the mark leads.** -/
theorem ofBytes?_of_opens {r : Representation} {bytes : Bytes} (h : OpensBytes r bytes) :
    ofBytes? bytes = if leads (byteOf r.mark) 0 bytes then some r else none := by
  obtain ⟨hlead, hblanks, hfirst⟩ := h
  next lead rest blanks first =>
  have hascii : IsAscii first := isAscii_of_opened hfirst
  have hleads : leads (byteOf r.mark) 0 (lead ++ blanks.map byteOf ++ byteOf first :: rest) = true ↔
      (lead ++ blanks.map byteOf).length < headLength ∧ first = r.mark := by
    have hzero : (0 : UInt8) = byteOf '\x00' := by decide
    rw [hzero, leads_iff (fun b hb => ne_of_mem_before hlead hblanks hb)
      (hfirst.imp (congrArg byteOf) (congrArg byteOf))]
    exact and_congr_right fun _ =>
      ⟨byteOf_injOn hascii (isAscii_mark r), congrArg byteOf⟩
  rw [ofBytes?, ← List.append_assoc]
  rcases take_headLength_cases (lead ++ blanks.map byteOf) (byteOf first) rest with
    ⟨hlength, more, htake⟩ | ⟨hlength, htake⟩
  · obtain ⟨pads, hpads, hdecoded⟩ := decodeLenient_before hlead hblanks
    rw [htake, List.append_assoc, hdecoded, decodeLenient_cons hascii, ofHead?_append hpads hfirst]
    simp only [hleads, hlength, true_and]
  · -- of the byte order mark nothing is cut off, only of the blanks
    have hshort : ∀ lead ∈ orderMarks, lead.length ≤ headLength := by decide
    have hcut : (lead ++ blanks.map byteOf).take headLength =
        lead ++ ((blanks.take (headLength - lead.length)).map byteOf ++ []) := by
      rw [List.take_append, List.take_of_length_le (hshort lead hlead), List.map_take,
        List.append_nil]
    obtain ⟨pads, hpads, hdecoded⟩ := decodeLenient_before hlead
      fun c hc => hblanks c (List.mem_of_mem_take hc)
    have hnothing : (decodeLenient []).toList = [] := by decide
    rw [htake, hcut, hdecoded, hnothing, List.append_nil, ofHead?_padding hpads, if_neg]
    exact fun h => hlength (hleads.mp h).1

/-! ## From bytes to text -/

/-- The beginning of the bytes of a text is that of the text. -/
theorem opensText_of_encode {r : Representation} {s : String} (h : OpensBytes r (encode s)) :
    OpensText r s.toList := by
  rw [encode_eq_flatMap] at h
  generalize hbytes : s.toList.flatMap String.utf8EncodeChar = bytes at h
  obtain ⟨hlead, hblanks, hfirst⟩ := h
  next lead rest blanks first =>
  have hascii : ∀ c ∈ blanks ++ [first], IsAscii c := fun c hc =>
    isAscii_of_mem_opening hblanks hfirst hc
  have hpads : ∀ c ∈ blanks, isPadding c = true := fun c hc => isPadding_of_isSpace (hblanks c hc)
  have hsplit : blanks.map byteOf ++ byteOf first :: rest =
      (blanks ++ [first]).map byteOf ++ rest := by
    rw [List.map_append, List.append_assoc]
    rfl
  rw [hsplit] at hbytes
  -- of the byte order marks only that of UTF-8 begins the bytes of a text
  simp only [orderMarks, List.mem_cons, List.not_mem_nil, or_false] at hlead
  rcases hlead with rfl | rfl | rfl | rfl
  · obtain ⟨after, hafter, -⟩ := prefix_of_flatMap hascii hbytes
    rw [hafter, List.append_assoc]
    exact .intro hpads hfirst
  · obtain ⟨marked, hmarked, hbytes⟩ := mark_of_flatMap hbytes
    obtain ⟨after, rfl, -⟩ := prefix_of_flatMap hascii hbytes
    rw [hmarked, List.append_assoc]
    have hmark : isPadding '\uFEFF' = true := by decide
    exact .intro (List.forall_mem_cons.mpr ⟨hmark, hpads⟩) hfirst
  · exact absurd (lt_of_flatMap hbytes) (by decide)
  · exact absurd (lt_of_flatMap hbytes) (by decide)

end Representation

/-! ## Documents that can be read -/

open OscalValidation.Representation

/-- A zero byte in place of the mark hides it. -/
theorem opens_of_zero {r : Representation} {lead rest : Bytes} (hlead : lead ∈ orderMarks) :
    OpensBytes r (lead ++ 0 :: rest) :=
  @OpensBytes.intro r lead rest [] '\x00' hlead (by simp) (Or.inr rfl)

/-- Where characters take more than a byte, the first one stands beside a zero byte. -/
theorem opens_of_asciiBytes {r : Representation} {encoding : Encoding} {lead rest : Bytes}
    {c : Char} (hlead : lead ∈ orderMarks) (hn : ¬ encoding.IsNarrow)
    (hc : c = r.mark ∨ Xml.isSpace c = true) :
    OpensBytes r (lead ++ (encoding.asciiBytes c ++ rest)) := by
  have hlittle : ∀ more, OpensBytes r (lead ++ byteOf c :: 0 :: more) := by
    intro more
    rcases hc with rfl | hspace
    · exact @OpensBytes.intro r lead (0 :: more) [] r.mark hlead (by simp) (Or.inl rfl)
    · exact @OpensBytes.intro r lead more [c] '\x00' hlead (by simpa using hspace) (Or.inr rfl)
  cases encoding with
  | utf8 | latin1 | ascii => exact absurd trivial hn
  | utf16 bigEndian | utf32 bigEndian =>
      cases bigEndian
      · exact hlittle _
      · exact opens_of_zero hlead

/-- **Bytes that decode to a text with the mark open with the mark,** or hide it. -/
theorem opens_of_decode {r : Representation} {encoding : Encoding} {surrogates : Bool}
    {bytes lead : Bytes} {s : String} {blanks after : List Char} (hlead : lead ∈ orderMarks)
    (h : decode encoding surrogates bytes = .ok s) (hs : s.toList = blanks ++ r.mark :: after)
    (hblanks : ∀ c ∈ blanks, Xml.isSpace c = true) : OpensBytes r (lead ++ bytes) := by
  by_cases hn : encoding.IsNarrow
  · -- the first characters show as they are
    have hsplit : blanks ++ r.mark :: after = (blanks ++ [r.mark]) ++ after := by simp
    have hascii : ∀ c ∈ blanks ++ [r.mark], IsAscii c := fun c hc =>
      isAscii_of_mem_opening hblanks (Or.inl rfl) hc
    rw [decode_eq_ok_iff, hs, hsplit] at h
    obtain ⟨rest, rfl, -⟩ := bytes_of_joinPieces hn h hascii
    rw [List.map_append, List.append_assoc]
    exact .intro hlead hblanks (Or.inl rfl)
  · cases blanks with
    | nil =>
        obtain ⟨rest, rfl⟩ := bytes_of_decode h hs (isAscii_mark r)
        exact opens_of_asciiBytes hlead hn (Or.inl rfl)
    | cons c blanks =>
        have hspace := hblanks c List.mem_cons_self
        obtain ⟨rest, rfl⟩ := bytes_of_decode h hs (isAscii_of_isSpace hspace)
        exact opens_of_asciiBytes hlead hn (Or.inr hspace)

/-- A structural document is decoded from what follows a byte order mark. -/
theorem Xml.decode_of_decodeDocument? {bytes : Bytes} {s : String}
    (h : Xml.decodeDocument? bytes = some s) :
    ∃ lead rest encoding, lead ∈ orderMarks ∧ bytes = lead ++ rest ∧
      decode encoding false rest = .ok s := by
  unfold Xml.decodeDocument? at h
  dsimp only at h
  split at h
  · exact ⟨[0xFF, 0xFE], _, _, by decide, rfl, eq_ok_of_toOption h⟩
  · exact ⟨[0xFE, 0xFF], _, _, by decide, rfl, eq_ok_of_toOption h⟩
  · exact ⟨[], _, _, by decide, rfl, eq_ok_of_toOption h⟩
  · exact ⟨[], _, _, by decide, rfl, eq_ok_of_toOption h⟩
  all_goals split at h
  all_goals first
    | exact ⟨[0xEF, 0xBB, 0xBF], _, _, by decide, rfl, eq_ok_of_toOption h⟩
    | exact ⟨[], _, _, by decide, rfl, eq_ok_of_toOption h⟩
    | cases h

/-- **Bytes of a structural document open with its mark.** -/
theorem Xml.opens_of_readBytes? {bytes : Bytes} {document : Xml.Document}
    (h : Xml.readBytes? bytes = some document) : OpensBytes .xml bytes := by
  obtain ⟨s, hs, hread⟩ := Option.bind_eq_some_iff.mp h
  obtain ⟨lead, rest, encoding, hlead, rfl, hdecode⟩ := Xml.decode_of_decodeDocument? hs
  obtain ⟨blanks, after, hbegins, hblanks⟩ := Xml.begins_of_read? hread
  exact opens_of_decode hlead hdecode hbegins hblanks

/-- The encoding of an object shows in a byte order mark, and else the document is taken as it is;
the marks of units of four bytes hold a zero byte themselves. -/
theorem Json.detectEncoding_cases (bytes : Bytes) :
    (∃ lead ∈ orderMarks, bytes = lead ++ (Json.detectEncoding bytes).2.1) ∨
      ∃ lead ∈ orderMarks, ∃ rest, bytes = lead ++ 0 :: rest := by
  unfold Json.detectEncoding
  split
  · exact Or.inr ⟨[], by decide, _, rfl⟩
  · exact Or.inr ⟨[0xFF, 0xFE], by decide, _, rfl⟩
  · exact Or.inl ⟨[0xFE, 0xFF], by decide, rfl⟩
  · exact Or.inl ⟨[0xFF, 0xFE], by decide, rfl⟩
  · exact Or.inl ⟨[0xEF, 0xBB, 0xBF], by decide, rfl⟩
  · exact Or.inl ⟨[], by decide, rfl⟩

/-- **Bytes of an object open with its mark.** -/
theorem Json.opens_of_readBytes {bytes : Bytes} {members : List (String × Json)}
    (h : Json.readBytes bytes = .ok (.obj members)) : OpensBytes .json bytes := by
  unfold Json.readBytes at h
  dsimp only at h
  split at h
  · cases h
  · next text hdecode =>
    obtain ⟨blanks, after, hbegins, hblanks⟩ := Json.begins_of_readDecoded (mapError_eq_ok_iff.mp h)
    rcases Json.detectEncoding_cases bytes with ⟨lead, hlead, hbytes⟩ | ⟨lead, hlead, rest, hbytes⟩
    · rw [hbytes]
      exact opens_of_decode hlead hdecode hbegins hblanks
    · rw [hbytes]
      exact opens_of_zero hlead

/-- **A text of an object opens with its mark.** -/
theorem Json.opensText_of_read {s : String} {members : List (String × Json)}
    (h : Json.read s = .ok (.obj members)) : OpensText .json s.toList := by
  obtain ⟨blanks, after, hbegins, hblanks⟩ := Json.begins_of_read h
  rw [hbegins]
  exact .intro (fun c hc => isPadding_of_isSpace (hblanks c hc)) (Or.inl rfl)

end OscalValidation
