import TokenBridge.Record.Config
import TokenBridge.Record.Route
import TokenBridge.Record.TransferLog
import TokenBridge.Proofs.FieldCodec
/-!
The three records decode exactly their own writings.

A configuration and a route are fixed layouts, 105 and 158 bytes: a buffer decodes to a value
exactly when it is that value's writing, so decoding and writing are inverse bijections between
values and the buffers that decode. A transfer log ends in a payload written after its length;
logs written before the payload existed stop after the destination, and the reader still takes
them, with an empty payload. So a log with an empty payload has two accepted forms, every other
log one, and no other buffer decodes. The text and the payload must fit their `u32` lengths
(`TransferLog.Fits`), which holds of every log that decodes.

Each reader is proved in two halves over the field laws of `FieldCodec`: `reader_sound`, whatever
the reader accepts is a writing, and `reader_encode`, a writing reads back.
-/

namespace TokenBridge

open Wire

namespace Config

theorem length_encode (v : Config) : v.encode.length = size := by
  simp [encode, Wire.bool, Wire.address, Wire.u64, Address.length_bytes, size]

theorem reader_sound {c c' : Cursor} {v : Config} (h : reader c = .ok (v, c')) :
    c.rest = v.encode ++ c'.rest := by
  simp only [reader, bind_eq_ok, readBool_eq_ok, readAddress_eq_ok, readU64_eq_ok,
    pure_eq_ok] at h
  obtain ⟨i, c1, ⟨h1, -⟩, o, c2, ⟨h2, -⟩, a, c3, ⟨h3, -⟩, f, c4, ⟨h4, -⟩, fc, c5, ⟨h5, -⟩,
    rfl, rfl⟩ := h
  simp only [encode, h1, h2, h3, h4, h5, List.append_assoc]

theorem reader_encode (v : Config) (rest : Bytes) (off : Nat) :
    reader ⟨v.encode ++ rest, off⟩ = .ok (v, ⟨rest, off + size⟩) := by
  simp only [encode, List.append_assoc]
  rw [reader, bind_of_ok (readBool_append ..), bind_of_ok (readAddress_append ..),
    bind_of_ok (readAddress_append ..), bind_of_ok (readU64_append ..),
    bind_of_ok (readAddress_append ..)]
  rfl

theorem decode_eq_ok_iff {b : Bytes} {v : Config} : decode b = .ok v ↔ b = v.encode :=
  decodeRecord_eq_ok_iff (fun v => Nat.le_of_eq (length_encode v).symm) reader_sound fun v =>
    ⟨_, by simpa [Cursor.start] using reader_encode v [] 0, rfl⟩

theorem decode_encode (v : Config) : decode v.encode = .ok v :=
  decode_eq_ok_iff.2 rfl

end Config

namespace Route

theorem length_encode (v : Route) : v.encode.length = size := by
  simp [encode, Wire.bool, Wire.u8, Wire.address, Wire.u32, Wire.u64, Address.length_bytes, size]

theorem reader_sound {c c' : Cursor} {v : Route} (h : reader c = .ok (v, c')) :
    c.rest = v.encode ++ c'.rest := by
  simp only [reader, bind_eq_ok, readBool_eq_ok, readU8_eq_ok, readAddress_eq_ok, readU32_eq_ok,
    readU64_eq_ok, pure_eq_ok] at h
  obtain ⟨_, _, ⟨h1, -⟩, _, _, ⟨h2, -⟩, _, _, ⟨h3, -⟩, _, _, ⟨h4, -⟩, _, _, ⟨h5, -⟩,
    _, _, ⟨h6, -⟩, _, _, ⟨h7, -⟩, _, _, ⟨h8, -⟩, _, _, ⟨h9, -⟩, _, _, ⟨h10, -⟩, rfl, rfl⟩ := h
  simp only [encode, h1, h2, h3, h4, h5, h6, h7, h8, h9, h10, List.append_assoc]

theorem reader_encode (v : Route) (rest : Bytes) (off : Nat) :
    reader ⟨v.encode ++ rest, off⟩ = .ok (v, ⟨rest, off + size⟩) := by
  simp only [encode, List.append_assoc]
  rw [reader, bind_of_ok (readBool_append ..), bind_of_ok (readU8_append ..),
    bind_of_ok (readAddress_append ..), bind_of_ok (readAddress_append ..),
    bind_of_ok (readAddress_append ..), bind_of_ok (readAddress_append ..),
    bind_of_ok (readU32_append ..), bind_of_ok (readU64_append ..),
    bind_of_ok (readU64_append ..), bind_of_ok (readU64_append ..)]
  rfl

theorem decode_eq_ok_iff {b : Bytes} {v : Route} : decode b = .ok v ↔ b = v.encode :=
  decodeRecord_eq_ok_iff (fun v => Nat.le_of_eq (length_encode v).symm) reader_sound fun v =>
    ⟨_, by simpa [Cursor.start] using reader_encode v [] 0, rfl⟩

theorem decode_encode (v : Route) : decode v.encode = .ok v :=
  decode_eq_ok_iff.2 rfl

/-- Bytes that decode as a config are no route: the two records differ in length. -/
theorem decode_toOption_of_config {b : Bytes} {c : Config} (hc : Config.decode b = .ok c) :
    (decode b).toOption = none := by
  cases hr : decode b with
  | error e => rfl
  | ok r =>
    have hlen := congrArg List.length
      ((Config.decode_eq_ok_iff.1 hc).symm.trans (decode_eq_ok_iff.1 hr))
    rw [Config.length_encode, length_encode] at hlen
    exact absurd hlen (by decide)

end Route

namespace TransferLog

/-- The recipient's text and the payload fit the `u32` lengths written before them. -/
def Fits (l : TransferLog) : Prop :=
  (Utf8.encode l.recipient).length < UInt32.size ∧ l.payload.length < UInt32.size

/-- The fields before the payload: the whole of a log in its older form. -/
def head (l : TransferLog) : Bytes :=
  Wire.address l.token ++ Wire.u64 l.index ++ Wire.address l.sender ++ Wire.text l.recipient
    ++ Wire.u64 l.amount ++ Wire.u64 l.fee ++ Wire.u32 l.destination

theorem encode_eq (l : TransferLog) : l.encode = l.head ++ Wire.bytes l.payload := rfl

theorem length_head (v : TransferLog) : v.head.length = 96 + (Utf8.encode v.recipient).length := by
  simp only [head, List.length_append, Address.length_bytes, address, u64, u32, text, bytes,
    Bytes.length_ofNatLE]
  omega

theorem atEnd_apply (c : Cursor) : atEnd c = .ok (c.rest.isEmpty, c) := rfl

/-- What the reader accepts is a log that fits, written in full or, without a payload, in its
older form that ends the input. -/
theorem reader_sound {c c' : Cursor} {v : TransferLog} (h : reader c = .ok (v, c')) :
    v.Fits ∧ (c.rest = v.encode ++ c'.rest ∨ (v.payload = [] ∧ c'.rest = [] ∧ c.rest = v.head)) := by
  simp only [reader, bind_eq_ok, readAddress_eq_ok, readU64_eq_ok, readText_eq_ok, readU32_eq_ok,
    atEnd_eq_ok] at h
  obtain ⟨tk, c1, ⟨h1, -⟩, ix, c2, ⟨h2, -⟩, sd, c3, ⟨h3, -⟩, rc, c4, ⟨hfit, h4, -⟩, am, c5, ⟨h5, -⟩,
    fe, c6, ⟨h6, -⟩, ds, c7, ⟨h7, -⟩, e, c8, ⟨rfl, rfl⟩, h⟩ := h
  have hhead : c.rest = head ⟨tk, ix, sd, rc, am, fe, ds, []⟩ ++ c8.rest := by
    simp only [head, h1, h2, h3, h4, h5, h6, h7, List.append_assoc]
  cases he : c8.rest.isEmpty
  · -- bytes remain after the destination, so the payload is read
    rw [he, if_neg Bool.false_ne_true] at h
    simp only [bind_eq_ok, readBytes_eq_ok, pure_eq_ok] at h
    obtain ⟨p, c9, ⟨hp, h9, -⟩, rfl, rfl⟩ := h
    refine ⟨⟨hfit, hp⟩, .inl ?_⟩
    rw [hhead, h9, encode_eq, List.append_assoc]
    rfl
  · -- the record ends after the destination: the older form, with no payload
    rw [he, if_pos rfl] at h
    simp only [bind_eq_ok, pure_eq_ok] at h
    obtain ⟨p, c9, ⟨rfl, rfl⟩, rfl, rfl⟩ := h
    refine ⟨⟨hfit, by simp⟩, .inr ⟨rfl, List.isEmpty_iff.1 he, ?_⟩⟩
    rw [hhead, List.isEmpty_iff.1 he, List.append_nil]

theorem reader_encode {v : TransferLog} (hv : v.Fits) (rest : Bytes) (off : Nat) :
    reader ⟨v.encode ++ rest, off⟩ = .ok (v, ⟨rest, off + v.encode.length⟩) := by
  simp only [encode, List.append_assoc]
  rw [reader, bind_of_ok (readAddress_append ..), bind_of_ok (readU64_append ..),
    bind_of_ok (readAddress_append ..), bind_of_ok (readText_append _ hv.1 ..),
    bind_of_ok (readU64_append ..), bind_of_ok (readU64_append ..), bind_of_ok (readU32_append ..),
    bind_of_ok (atEnd_apply _)]
  -- the length of the payload comes next, so the record does not end here
  have hmore : (bytes v.payload ++ rest).isEmpty = false := rfl
  simp only [hmore, Bool.false_eq_true, if_false]
  rw [bind_of_ok (readBytes_append _ hv.2 ..)]
  show Except.ok _ = _
  simp only [List.length_append, Address.length_bytes, address, u64, u32, text, bytes,
    Bytes.length_ofNatLE]
  congr 3
  omega

theorem reader_head {v : TransferLog} (hr : (Utf8.encode v.recipient).length < UInt32.size)
    (hp : v.payload = []) (off : Nat) :
    reader ⟨v.head, off⟩ = .ok (v, ⟨[], off + v.head.length⟩) := by
  rw [← List.append_nil v.head]
  simp only [head, List.append_assoc]
  rw [reader, bind_of_ok (readAddress_append ..), bind_of_ok (readU64_append ..),
    bind_of_ok (readAddress_append ..), bind_of_ok (readText_append _ hr ..),
    bind_of_ok (readU64_append ..), bind_of_ok (readU64_append ..), bind_of_ok (readU32_append ..),
    bind_of_ok (atEnd_apply _)]
  -- nothing is left after the destination: the payload is taken as empty
  simp only [List.isEmpty_nil, if_true]
  show Except.ok _ = _
  simp only [List.length_append, Address.length_bytes, address, u64, u32, text, bytes,
    Bytes.length_ofNatLE, List.length_nil, Nat.add_zero]
  rw [← hp]
  congr 3
  omega

theorem decode_eq_ok_iff {b : Bytes} {v : TransferLog} :
    decode b = .ok v ↔ v.Fits ∧ (b = v.encode ∨ (v.payload = [] ∧ b ++ Wire.u32 0 = v.encode)) := by
  rw [decode, decodeRecord_eq_ok]
  constructor
  · rintro ⟨-, c', hc, hrest⟩
    obtain ⟨hfit, h | ⟨hp, -, h⟩⟩ := reader_sound hc
    · exact ⟨hfit, .inl (by simpa [Cursor.start, hrest] using h)⟩
    · refine ⟨hfit, .inr ⟨hp, ?_⟩⟩
      rw [show b = v.head from h, encode_eq, hp]
      rfl
  · rintro ⟨hfit, rfl | ⟨hp, hb⟩⟩
    · refine ⟨?_, ⟨[], _⟩, by simpa [Cursor.start] using reader_encode hfit [] 0, rfl⟩
      rw [encode_eq, List.length_append, length_head, minSize]
      omega
    · -- the older form is the full writing less the payload's length, which is `u32 0`
      have hbh : b = v.head := by
        rw [encode_eq, hp] at hb
        exact List.append_cancel_right hb
      subst hbh
      refine ⟨?_, ⟨[], _⟩, by simpa [Cursor.start] using reader_head hfit.1 hp 0, rfl⟩
      rw [length_head, minSize]
      omega

theorem decode_encode {v : TransferLog} (hv : v.Fits) : decode v.encode = .ok v :=
  decode_eq_ok_iff.2 ⟨hv, .inl rfl⟩

end TransferLog

/-- The record codecs are bijections onto what decodes: a configuration and a route have one
writing each, of 105 and 158 bytes, and a transfer log that fits its lengths has its writing and,
when its payload is empty, the older form that stops before the payload's length. -/
theorem decode_accepts_exactly_encodings :
    (∀ (b : Bytes) (c : Config), Config.decode b = .ok c ↔ b = c.encode) ∧
    (∀ (b : Bytes) (r : Route), Route.decode b = .ok r ↔ b = r.encode) ∧
    (∀ (b : Bytes) (l : TransferLog), TransferLog.decode b = .ok l ↔
      l.Fits ∧ (b = l.encode ∨ (l.payload = [] ∧ b ++ Wire.u32 0 = l.encode))) ∧
    (∀ c : Config, c.encode.length = 105) ∧ (∀ r : Route, r.encode.length = 158) :=
  ⟨fun _ _ => Config.decode_eq_ok_iff, fun _ _ => Route.decode_eq_ok_iff,
    fun _ _ => TransferLog.decode_eq_ok_iff, Config.length_encode, Route.length_encode⟩

end TokenBridge
