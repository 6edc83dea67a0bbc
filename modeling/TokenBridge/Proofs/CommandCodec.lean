import TokenBridge.Command
import TokenBridge.Proofs.FieldCodec
/-!
Command data decodes exactly the writings of commands.

The tag byte names one kind and only one (`Tag.ofU8?_eq_some_iff`), so the reader takes the
branch of the written command and no other. Each branch is proved in two halves, as the
records are: `argsReader_sound`, what it accepts is a writing of a command of that tag, and
`argsReader_args`, a writing reads back. Unpacking refuses any byte after the arguments, so a
buffer unpacks to a command exactly when it is that command's writing. Only a bridge command
carries lengths, and it is written faithfully only while its recipient and payload fit them
(`Command.Fits`); a command that does not fit is never unpacked.
-/

namespace TokenBridge

open Wire

namespace Tag

theorem ofU8?_eq_some_iff {b : UInt8} {t : Tag} : ofU8? b = some t ↔ b = t.toU8 := by
  constructor
  · intro h
    have hb := List.find?_some h
    exact (beq_iff_eq.1 hb).symm
  · rintro rfl
    exact ofU8?_toU8 t

end Tag

namespace Command

/-- The recipient and payload of a bridge command fit the `u32` lengths written before them;
the other commands have no lengths. -/
def Fits : Command → Prop
  | .bridge _ recipient payload =>
    (Utf8.encode recipient).length < UInt32.size ∧ payload.length < UInt32.size
  | _ => True

/-! ### The arguments of each tag -/

theorem argsReader_sound {t : Tag} {c c' : Cursor} {v : Command} (h : argsReader t c = .ok (v, c')) :
    v.tag = t ∧ v.Fits ∧ c.rest = v.args ++ c'.rest := by
  cases t with
  | config | changeFee | settle =>
    simp only [argsReader, bind_eq_ok, readU64_eq_ok, pure_eq_ok] at h
    obtain ⟨x, c1, ⟨h1, -⟩, rfl, rfl⟩ := h
    exact ⟨rfl, trivial, h1⟩
  | transferOwner | changeAuthority =>
    obtain ⟨rfl, rfl⟩ := pure_eq_ok.1 h
    exact ⟨rfl, trivial, rfl⟩
  | create =>
    simp only [argsReader, bind_eq_ok, readU32_eq_ok, readU64_eq_ok, pure_eq_ok] at h
    obtain ⟨d, c1, ⟨h1, -⟩, hi, c2, ⟨h2, -⟩, lo, c3, ⟨h3, -⟩, rfl, rfl⟩ := h
    refine ⟨rfl, trivial, ?_⟩
    simp only [args, h1, h2, h3, List.append_assoc]
  | changeLimit =>
    simp only [argsReader, bind_eq_ok, readU64_eq_ok, pure_eq_ok] at h
    obtain ⟨hi, c1, ⟨h1, -⟩, lo, c2, ⟨h2, -⟩, rfl, rfl⟩ := h
    refine ⟨rfl, trivial, ?_⟩
    simp only [args, h1, h2, List.append_assoc]
  | bridge =>
    simp only [argsReader, bind_eq_ok, readU64_eq_ok, readText_eq_ok, readBytes_eq_ok,
      pure_eq_ok] at h
    obtain ⟨a, c1, ⟨h1, -⟩, r, c2, ⟨hr, h2, -⟩, p, c3, ⟨hp, h3, -⟩, rfl, rfl⟩ := h
    refine ⟨rfl, ⟨hr, hp⟩, ?_⟩
    simp only [args, h1, h2, h3, List.append_assoc]

theorem argsReader_args {v : Command} (hv : v.Fits) (rest : Bytes) (off : Nat) :
    ∃ off', argsReader v.tag ⟨v.args ++ rest, off⟩ = .ok (v, ⟨rest, off'⟩) := by
  cases v with
  | config fee | changeFee fee | settle fee =>
    exact ⟨_, by rw [tag, argsReader, args, bind_of_ok (readU64_append ..)]; rfl⟩
  | transferOwner | changeAuthority => exact ⟨off, rfl⟩
  | create d hi lo =>
    simp only [args, List.append_assoc]
    exact ⟨_, by
      rw [tag, argsReader, bind_of_ok (readU32_append ..), bind_of_ok (readU64_append ..),
        bind_of_ok (readU64_append ..)]
      rfl⟩
  | changeLimit hi lo =>
    simp only [args, List.append_assoc]
    exact ⟨_, by
      rw [tag, argsReader, bind_of_ok (readU64_append ..), bind_of_ok (readU64_append ..)]
      rfl⟩
  | bridge a r p =>
    simp only [args, List.append_assoc]
    exact ⟨_, by
      rw [tag, argsReader, bind_of_ok (readU64_append ..), bind_of_ok (readText_append _ hv.1 ..),
        bind_of_ok (readBytes_append _ hv.2 ..)]
      rfl⟩

/-! ### Whole commands -/

theorem reader_sound {c c' : Cursor} {v : Command} (h : reader c = .ok (v, c')) :
    v.Fits ∧ c.rest = v.pack ++ c'.rest := by
  simp only [reader, bind_eq_ok, readU8_eq_ok] at h
  obtain ⟨b, c1, ⟨h1, -⟩, h⟩ := h
  cases ht : Tag.ofU8? b with
  | none =>
    rw [ht] at h
    exact absurd h throw_ne_ok
  | some t =>
    rw [ht] at h
    -- the byte read is the tag of the command the arguments make
    obtain ⟨rfl, hfit, hargs⟩ := argsReader_sound h
    refine ⟨hfit, ?_⟩
    rw [h1, Tag.ofU8?_eq_some_iff.1 ht, hargs]
    rfl

theorem reader_pack {v : Command} (hv : v.Fits) (rest : Bytes) (off : Nat) :
    ∃ off', reader ⟨v.pack ++ rest, off⟩ = .ok (v, ⟨rest, off'⟩) := by
  obtain ⟨off', h⟩ := argsReader_args hv rest (off + 1)
  refine ⟨off', ?_⟩
  have htag : readU8 "tag" ⟨v.pack ++ rest, off⟩ = .ok (v.tag.toU8, ⟨v.args ++ rest, off + 1⟩) :=
    readU8_append "tag" v.tag.toU8 (v.args ++ rest) off
  rw [reader, bind_of_ok htag]
  -- the tag byte names the command's own kind, so the reader takes its branch
  simp only [Tag.ofU8?_toU8]
  exact h

theorem unpack_eq_ok {b : Bytes} {v : Command} :
    unpack b = .ok v ↔ ∃ c', reader (Cursor.start b) = .ok (v, c') ∧ c'.rest = [] := by
  unfold unpack
  cases hr : reader (Cursor.start b) with
  | error f => simp
  | ok p =>
    obtain ⟨w, c'⟩ := p
    simp only [Except.ok.injEq, Prod.mk.injEq]
    constructor
    · intro h
      cases he : c'.rest.isEmpty
      · rw [he] at h
        exact absurd h (by simp)
      · rw [he, if_pos rfl] at h
        exact ⟨c', ⟨Except.ok.inj h, rfl⟩, List.isEmpty_iff.1 he⟩
    · rintro ⟨_, ⟨rfl, rfl⟩, hnil⟩
      simp [hnil]

theorem unpack_eq_ok_iff {b : Bytes} {v : Command} : unpack b = .ok v ↔ v.Fits ∧ b = v.pack := by
  rw [unpack_eq_ok]
  constructor
  · rintro ⟨c', hc, hrest⟩
    obtain ⟨hfit, h⟩ := reader_sound hc
    exact ⟨hfit, by simpa [Cursor.start, hrest] using h⟩
  · rintro ⟨hfit, rfl⟩
    obtain ⟨off', h⟩ := reader_pack hfit [] 0
    exact ⟨_, by simpa [Cursor.start] using h, rfl⟩

end Command

/-- Packing and unpacking are inverse on the commands that fit their lengths, and no other buffer
unpacks; the first byte of a packed command is its tag, which names its kind back. -/
theorem unpack_accepts_exactly_packings :
    (∀ (b : Bytes) (i : Command), Command.unpack b = .ok i ↔ i.Fits ∧ b = i.pack) ∧
    (∀ i : Command, i.pack.head? = some i.tag.toU8) ∧
    (∀ i : Command, Tag.ofU8? i.tag.toU8 = some i.tag) :=
  ⟨fun _ _ => Command.unpack_eq_ok_iff, fun _ => rfl, fun i => Tag.ofU8?_toU8 i.tag⟩

end TokenBridge
