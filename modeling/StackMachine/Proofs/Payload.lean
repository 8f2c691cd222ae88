import Mathlib.Algebra.Group.Nat.Defs
import StackMachine.Payload
import StackMachine.Proofs.Lines

/-!
# Payloads are found again

An image with the mark is a front, eight bytes for a length and the mark (`Marked`). `read_cases`
says all that reading an image can come to: it has no mark, its length is that of more bytes than
the front has, or it is `embed host source` for a host and a source, which is text or is refused.
From this and its converses the exact set of images behind each answer follows
(`read_eq_iff_embed`): nothing that stands in the host counts, not even a payload.

A length is a number of eight bytes, so images are shorter than `2 ^ 64` bytes throughout. The
offsets are differences of natural numbers. `readChecked` is the reader that gives up when one of
them would be negative, and it never does (`readChecked_eq`).
-/

namespace StackMachine.Payload

/-! ## The length -/

/-- The mark has 16 bytes. -/
theorem size_mark : mark.size = 16 := rfl

/-- A length is written in 8 bytes. -/
theorem size_lengthBytes (n : Nat) : (lengthBytes n).size = 8 := rfl

/-- Eight bytes are enough for a length below `2 ^ 64`. -/
theorem lengthOfBytes_lengthBytes {n : Nat} (h : n < 2 ^ 64) :
    lengthOfBytes (lengthBytes n) = n := by
  simp only [lengthOfBytes, lengthBytes, List.map, List.data_toByteArray, List.foldl,
    UInt8.toNat_ofNat', Nat.shiftRight_eq_div_pow]
  omega

/-- A length is written in one way. -/
theorem lengthBytes_lengthOfBytes {field : ByteArray} (h : field.size = 8) :
    lengthBytes (lengthOfBytes field) = field := by
  obtain ⟨⟨bytes⟩⟩ := field
  obtain ⟨a, b, c, d, e, f, g, i, rfl⟩ : ∃ a b c d e f g i, bytes = [a, b, c, d, e, f, g, i] := by
    match bytes, h with
    | [a, b, c, d, e, f, g, i], _ => exact ⟨a, b, c, d, e, f, g, i, rfl⟩
  have byte {x : Nat} {u : UInt8} (hx : x % 2 ^ 8 = u.toNat) : UInt8.ofNat x = u := by
    rw [← UInt8.toNat_inj, UInt8.toNat_ofNat', hx]
  have ha := a.toNat_lt
  have hb := b.toNat_lt
  have hc := c.toNat_lt
  have hd := d.toNat_lt
  have he := e.toNat_lt
  have hf := f.toNat_lt
  have hg := g.toNat_lt
  have hi := i.toNat_lt
  refine ByteArray.ext ?_
  simp only [lengthOfBytes, lengthBytes, List.map, List.data_toByteArray, List.foldl,
    Nat.shiftRight_eq_div_pow]
  congr 1
  rw [byte (u := a), byte (u := b), byte (u := c), byte (u := d), byte (u := e), byte (u := f),
    byte (u := g), byte (u := i)]
  all_goals omega

/-! ## Images with the mark -/

/-- The image is a front, eight bytes and the mark. -/
structure Marked (image front field : ByteArray) : Prop where
  size_field : field.size = 8
  eq : image = front ++ field ++ mark

/-- The field and the mark take 24 bytes. -/
theorem Marked.size_eq {image front field : ByteArray} (h : Marked image front field) :
    image.size = front.size + 24 := by
  rw [h.eq, ByteArray.size_append, ByteArray.size_append, h.size_field, size_mark]

/-- What is embedded is marked. -/
theorem marked_embed (host source : ByteArray) :
    Marked (embed host source) (host ++ source) (lengthBytes source.size) :=
  ⟨size_lengthBytes _, rfl⟩

/-- An image that ends in the mark, and is not too short, has a front. -/
theorem exists_marked {image : ByteArray} (hsize : ¬image.size < 24)
    (hmark : image.extract (image.size - 16) image.size = mark) :
    ∃ front field, Marked image front field := by
  refine ⟨image.extract 0 (image.size - 24), image.extract (image.size - 24) (image.size - 16),
    ?_, ?_⟩
  · rw [ByteArray.size_extract]
    omega
  · rw [← hmark, ← ByteArray.extract_eq_extract_append_extract _ (by omega) (by omega),
      ← ByteArray.extract_eq_extract_append_extract _ (by omega) (by omega),
      ByteArray.extract_zero_size]

/-- The last 16 bytes are the mark. -/
theorem Marked.extract_mark {image front field : ByteArray} (h : Marked image front field) :
    image.extract (image.size - 16) image.size = mark := by
  have hsize := h.size_eq
  have hfield := h.size_field
  rw [h.eq]
  refine ByteArray.extract_append_eq_right ?_ ?_
  · rw [← h.eq, ByteArray.size_append]
    omega
  · rw [ByteArray.size_append]

/-- The 8 bytes before the mark are the field. -/
theorem Marked.extract_field {image front field : ByteArray} (h : Marked image front field) :
    image.extract (image.size - 24) (image.size - 16) = field := by
  have hsize := h.size_eq
  have hfield := h.size_field
  have hstart : image.size - 24 = front.size := by omega
  have hstop : image.size - 16 = front.size + field.size := by omega
  rw [hstart, hstop, h.eq, ByteArray.append_assoc, ← Nat.add_zero front.size, Nat.add_assoc,
    Nat.zero_add, ByteArray.extract_append_size_add]
  exact ByteArray.extract_append_eq_left rfl

/-- What stands behind the first bytes of the front is not reached. -/
theorem Marked.extract_front {image front field : ByteArray} (h : Marked image front field)
    (i : Nat) : image.extract i (image.size - 24) = front.extract i front.size := by
  have hsize := h.size_eq
  have hstop : image.size - 24 = front.size := by omega
  rw [hstop, h.eq, ByteArray.append_assoc, ByteArray.extract_append_size_left]

/-! ## Reading -/

/-- The bytes of a text are decoded as the text. -/
theorem decode_toUTF8 (s : String) : decode s.toUTF8 = .ok s := by
  have hback : String.fromUTF8? s.toUTF8 = some s :=
    Assembly.fromUTF8?_eq_some_iff.mpr String.toUTF8_eq_toByteArray
  rw [decode, hback]

/-- Bytes that are no text are refused as such. -/
theorem exists_decode_eq_error {bytes : ByteArray} (h : ∀ s : String, bytes ≠ s.toUTF8) :
    ∃ fault, decode bytes = .error (.notText fault) := by
  cases hdecode : String.fromUTF8? bytes with
  | none => exact ⟨_, by rw [decode, hdecode]⟩
  | some s =>
    rw [Assembly.fromUTF8?_eq_some_iff, ← String.toUTF8_eq_toByteArray] at hdecode
    exact absurd hdecode (h s)

/-- An image without the mark carries nothing. -/
theorem read_of_unmarked {image : ByteArray}
    (h : image.size < 24 ∨ image.extract (image.size - 16) image.size ≠ mark) :
    read image = .ok none := by
  unfold read
  dsimp only
  by_cases hshort : image.size < suffixSize
  · rw [if_pos hshort]
  · have hmark := mt ByteArray.ext (h.resolve_left hshort)
    rw [if_neg hshort, size_mark, if_neg hmark]

/-- Reading an image with the mark: the length decides. -/
theorem read_of_marked {image front field : ByteArray} (h : Marked image front field) :
    read image =
      if lengthOfBytes field ≤ front.size then
        (decode (front.extract (front.size - lengthOfBytes field) front.size)).map some
      else .error (.tooLong (lengthOfBytes field) image.size) := by
  have hsize := h.size_eq
  have hlong : ¬image.size < suffixSize := by
    rw [suffixSize]
    omega
  have hfront : image.size - 24 = front.size := by omega
  unfold read
  dsimp only
  rw [if_neg hlong, size_mark, if_pos (congrArg ByteArray.data h.extract_mark), suffixSize,
    h.extract_field, h.extract_front, hfront]

/-- Reading what was embedded is decoding it, whatever the host is. -/
theorem read_embed {source : ByteArray} (hsource : source.size < 2 ^ 64) (host : ByteArray) :
    read (embed host source) = (decode source).map some := by
  have hback := lengthOfBytes_lengthBytes hsource
  have hroom : source.size ≤ (host ++ source).size := by
    rw [ByteArray.size_append]
    omega
  have hstart : (host ++ source).size - source.size = host.size := by
    rw [ByteArray.size_append]
    omega
  rw [read_of_marked (marked_embed host source), hback, if_pos hroom, hstart,
    ByteArray.extract_append_eq_right rfl ByteArray.size_append]

/-- An image with the mark and a length that fits was made by embedding. -/
theorem Marked.exists_embed {image front field : ByteArray} (h : Marked image front field)
    (hroom : lengthOfBytes field ≤ front.size) : ∃ host source, image = embed host source := by
  refine ⟨front.extract 0 (front.size - lengthOfBytes field),
    front.extract (front.size - lengthOfBytes field) front.size, ?_⟩
  have hsource : (front.extract (front.size - lengthOfBytes field) front.size).size =
      lengthOfBytes field := by
    rw [ByteArray.size_extract]
    omega
  rw [embed, hsource, lengthBytes_lengthOfBytes h.size_field,
    ← ByteArray.extract_eq_extract_append_extract _ (Nat.zero_le _) (Nat.sub_le _ _),
    ByteArray.extract_zero_size]
  exact h.eq

/-- A source is shorter than the image with it. -/
theorem size_source_lt {host source : ByteArray} (h : (embed host source).size < 2 ^ 64) :
    source.size < 2 ^ 64 := by
  rw [(marked_embed host source).size_eq, ByteArray.size_append] at h
  omega

/-- A text that was embedded is read. -/
theorem read_embed_toUTF8 {s : String} (hs : s.toUTF8.size < 2 ^ 64) (host : ByteArray) :
    read (embed host s.toUTF8) = .ok (some s) := by
  rw [read_embed hs, decode_toUTF8, Except.map]

/-- A source that is no text is refused. -/
theorem exists_read_embed_eq_error {source : ByteArray} (hsource : source.size < 2 ^ 64)
    (h : ∀ s : String, source ≠ s.toUTF8) (host : ByteArray) :
    ∃ fault, read (embed host source) = .error (.notText fault) := by
  obtain ⟨fault, hfault⟩ := exists_decode_eq_error h
  exact ⟨fault, by rw [read_embed hsource, hfault, Except.map]⟩

/-- A length beyond the image is refused. -/
theorem read_of_tooLong {image front field : ByteArray} (h : Marked image front field)
    (hlong : front.size < lengthOfBytes field) :
    read image = .error (.tooLong (lengthOfBytes field) image.size) := by
  rw [read_of_marked h, if_neg (Nat.not_le_of_lt hlong)]

/-- All that reading an image can come to. -/
theorem read_cases {image : ByteArray} (himage : image.size < 2 ^ 64) :
    ((image.size < 24 ∨ image.extract (image.size - 16) image.size ≠ mark) ∧
      read image = .ok none) ∨
    (∃ front field, Marked image front field ∧ front.size < lengthOfBytes field ∧
      read image = .error (.tooLong (lengthOfBytes field) image.size)) ∨
    (∃ host, ∃ s : String, image = embed host s.toUTF8 ∧ read image = .ok (some s)) ∨
    ∃ host source, image = embed host source ∧ (∀ s : String, source ≠ s.toUTF8) ∧
      ∃ fault, read image = .error (.notText fault) := by
  by_cases hunmarked : image.size < 24 ∨ image.extract (image.size - 16) image.size ≠ mark
  · exact .inl ⟨hunmarked, read_of_unmarked hunmarked⟩
  · obtain ⟨hsize, hmark⟩ := not_or.mp hunmarked
    obtain ⟨front, field, hmarked⟩ := exists_marked hsize (Decidable.not_not.mp hmark)
    by_cases hroom : lengthOfBytes field ≤ front.size
    · obtain ⟨host, source, rfl⟩ := hmarked.exists_embed hroom
      have hsource := size_source_lt himage
      by_cases htext : ∃ s : String, source = s.toUTF8
      · obtain ⟨s, rfl⟩ := htext
        exact .inr (.inr (.inl ⟨host, s, rfl, read_embed_toUTF8 hsource host⟩))
      · have hno : ∀ s : String, source ≠ s.toUTF8 := fun s hs => htext ⟨s, hs⟩
        exact .inr
          (.inr (.inr ⟨host, source, rfl, hno, exists_read_embed_eq_error hsource hno host⟩))
    · have hlong := Nat.lt_of_not_le hroom
      exact .inr (.inl ⟨front, field, hmarked, hlong, read_of_tooLong hmarked hlong⟩)

/-! ## The images behind each answer -/

section
variable {image : ByteArray} (himage : image.size < 2 ^ 64)
include himage

/-- A text is read exactly if it was embedded. -/
theorem read_eq_some_iff (text : String) :
    read image = .ok (some text) ↔ ∃ host, image = embed host text.toUTF8 := by
  constructor
  · intro h
    obtain ⟨-, hread⟩ | ⟨_, _, -, -, hread⟩ | ⟨host, s, hs, hread⟩ | ⟨_, _, -, -, _, hread⟩ :=
      read_cases himage
    all_goals rw [hread] at h
    all_goals cases h
    exact ⟨host, hs⟩
  · rintro ⟨host, rfl⟩
    exact read_embed_toUTF8 (size_source_lt himage) host

/-- Nothing is read exactly if there is no mark. -/
theorem read_eq_none_iff :
    read image = .ok none ↔
      image.size < 24 ∨ image.extract (image.size - 16) image.size ≠ mark := by
  refine ⟨fun h => ?_, read_of_unmarked⟩
  obtain ⟨hunmarked, -⟩ | ⟨_, _, -, -, hread⟩ | ⟨_, _, -, hread⟩ | ⟨_, _, -, -, _, hread⟩ :=
    read_cases himage
  · exact hunmarked
  all_goals
    rw [hread] at h
    cases h

/-- An image is refused for its length exactly if the field says more than there is in front of
it. -/
theorem read_eq_tooLong_iff (length size : Nat) :
    read image = .error (.tooLong length size) ↔
      size = image.size ∧ ∃ front field, Marked image front field ∧ length = lengthOfBytes field ∧
        front.size < length := by
  constructor
  · intro h
    obtain ⟨-, hread⟩ | ⟨front, field, hmarked, hlong, hread⟩ | ⟨_, _, -, hread⟩ |
      ⟨_, _, -, -, _, hread⟩ := read_cases himage
    all_goals rw [hread] at h
    all_goals cases h
    exact ⟨rfl, front, field, hmarked, rfl, hlong⟩
  · rintro ⟨rfl, front, field, hmarked, rfl, hlong⟩
    exact read_of_tooLong hmarked hlong

/-- An image is refused for its source exactly if that is no text. -/
theorem read_eq_notText_iff :
    (∃ fault, read image = .error (.notText fault)) ↔
      ∃ host source, image = embed host source ∧ ∀ s : String, source ≠ s.toUTF8 := by
  constructor
  · rintro ⟨fault, h⟩
    obtain ⟨-, hread⟩ | ⟨_, _, -, -, hread⟩ | ⟨_, _, -, hread⟩ | ⟨host, source, hs, hno, -⟩ :=
      read_cases himage
    case inr.inr.inr => exact ⟨host, source, hs, hno⟩
    all_goals
      rw [hread] at h
      cases h
  · rintro ⟨host, source, rfl, hno⟩
    exact exists_read_embed_eq_error (size_source_lt himage) hno host

end

/-! ## Offsets -/

/-- The difference, unless it is negative. -/
def sub? (a b : Nat) : Option Nat := if b ≤ a then some (a - b) else none

/-- Reads an image, and gives up if an offset would be negative. -/
def readChecked (image : ByteArray) : Option (Except Fault (Option String)) :=
  if image.size < suffixSize then some (.ok none)
  else do
    let markStart ← sub? image.size mark.size
    let fieldStart ← sub? image.size suffixSize
    if (image.extract markStart image.size).data = mark.data then
      let length := lengthOfBytes (image.extract fieldStart markStart)
      if length ≤ fieldStart then do
        let start ← sub? fieldStart length
        some ((decode (image.extract start fieldStart)).map some)
      else some (.error (.tooLong length image.size))
    else some (.ok none)

/-- A difference that is no underflow. -/
theorem sub?_of_le {a b : Nat} (h : b ≤ a) : sub? a b = some (a - b) := if_pos h

/-- No offset is negative. -/
theorem readChecked_eq (image : ByteArray) : readChecked image = some (read image) := by
  unfold readChecked read
  dsimp only
  by_cases hshort : image.size < suffixSize
  · rw [if_pos hshort, if_pos hshort]
  · have hsuffix : suffixSize ≤ image.size := Nat.le_of_not_lt hshort
    have hmark : mark.size ≤ image.size := Nat.le_trans (by decide) hsuffix
    rw [if_neg hshort, if_neg hshort, sub?_of_le hmark, sub?_of_le hsuffix]
    dsimp only [Option.bind_eq_bind, Option.bind_some]
    split
    · split
      · rename_i hlength
        rw [sub?_of_le hlength, Option.bind_some]
      · rfl
    · rfl

/-! ## Programs -/

/-- A source that assembles is text: its lines are, one by one, and so is the whole. -/
theorem exists_text_of_assemble {source : ByteArray} {a : Assembly.Assembled}
    (h : Assembly.assemble source = .ok a) : ∃ s : String, source = s.toUTF8 := by
  have hlines := Assembly.isSome_decodeLine_of_addLines h
  have hbytes : source.data.toList.toByteArray = source :=
    ByteArray.ext (by rw [List.data_toByteArray, Array.toArray_toList])
  have hvalid := Assembly.isValidUTF8_of_decodeLine hlines
  rw [hbytes] at hvalid
  obtain ⟨chars, hchars⟩ := hvalid
  refine ⟨String.ofList chars, ?_⟩
  rw [String.toUTF8_eq_toByteArray, String.toByteArray_ofList, hchars]

/-- An image that carries a source which assembles loads as what the source assembles to. -/
theorem load_embed {source : ByteArray} {a : Assembly.Assembled} (hsource : source.size < 2 ^ 64)
    (h : Assembly.assemble source = .ok a) (host : ByteArray) :
    load (embed host source) = .ok (some a) := by
  obtain ⟨s, rfl⟩ := exists_text_of_assemble h
  have hread := read_embed_toUTF8 hsource host
  have hassemble : Assembly.assembleText s = .ok a := h
  rw [load, hread]
  dsimp only
  rw [hassemble]

/-- Which images carry a text, carry nothing, have a length that is too long or carry bytes that are
no text: the reader and `embed` agree on each, and there is no fifth answer. So what was embedded is
read back, and loads as what it assembles to, whatever the host is. -/
theorem read_eq_iff_embed {image : ByteArray} (himage : image.size < 2 ^ 64) :
    (∀ text : String, read image = .ok (some text) ↔ ∃ host, image = embed host text.toUTF8) ∧
    (read image = .ok none ↔
      image.size < 24 ∨ image.extract (image.size - 16) image.size ≠ mark) ∧
    (∀ length size, read image = .error (.tooLong length size) ↔
      size = image.size ∧ ∃ front field, Marked image front field ∧ length = lengthOfBytes field ∧
        front.size < length) ∧
    ((∃ fault, read image = .error (.notText fault)) ↔
      ∃ host source, image = embed host source ∧ ∀ s : String, source ≠ s.toUTF8) ∧
    (∀ error, read image ≠ .error (.notAssembled error)) ∧
    readChecked image = some (read image) ∧
    ∀ host source, image = embed host source →
      (∀ s : String, source = s.toUTF8 → read image = .ok (some s)) ∧
      ∀ a, Assembly.assemble source = .ok a → load image = .ok (some a) := by
  refine ⟨read_eq_some_iff himage, read_eq_none_iff himage, read_eq_tooLong_iff himage,
    read_eq_notText_iff himage, ?_, readChecked_eq image, ?_⟩
  · intro error h
    obtain ⟨-, hread⟩ | ⟨_, _, -, -, hread⟩ | ⟨_, _, -, hread⟩ | ⟨_, _, -, -, _, hread⟩ :=
      read_cases himage
    all_goals
      rw [hread] at h
      cases h
  · rintro host source rfl
    have hsource := size_source_lt himage
    refine ⟨?_, fun a ha => load_embed hsource ha host⟩
    rintro s rfl
    exact read_embed_toUTF8 hsource host

/-- A host that carries a payload already, and a source that ends in the mark inside a comment: the
new source is what is read and loaded. -/
theorem read_eq_iff_embed_twice :
    let host := embed "host".toUTF8 "add".toUTF8
    let source := "out 1\n; embeddedcodecode"
    read (embed host source.toUTF8) = .ok (some source) ∧
      load (embed host source.toUTF8) = .ok (some ⟨#[.output 1], []⟩) := by
  intro host source
  have hsize : (embed host source.toUTF8).size < 2 ^ 64 := by decide +kernel
  obtain ⟨-, -, -, -, -, -, hembedded⟩ := read_eq_iff_embed hsize
  obtain ⟨htext, hload⟩ := hembedded host source.toUTF8 rfl
  exact ⟨htext source rfl, hload _ rfl⟩

end StackMachine.Payload
