import TokenBridge.Ledger.BridgeProgram
import TokenBridge.Proofs.RecordCodec
/-!
Which log lines carry a transfer.

A transfer is logged as `Program log: Bridge: ` and the hexadecimal of its record, and reading
the line gives the record back whenever its text and payload fit their lengths
(`parse_logLine_ofLog`): the digits are ASCII, so their UTF-8 bytes are the digits themselves,
none of them is blank, and each pair reads back as its byte. Every other line that the ledger or
its programs write is not a transfer line at all: a program's own line that does not start with
`Bridge: `, and the `invoke` and `success` lines around each instruction, whose program is
written in base 58, an alphabet without `l`.
-/

namespace TokenBridge

/-! ### Hexadecimal -/

namespace Hex

/-- The byte of the digit of a value below 16. -/
def digitByte (n : Nat) : UInt8 := (digitChar n).toNat.toUInt8

theorem encodeChar_digitChar : ∀ n < 16, String.utf8EncodeChar (digitChar n) = [digitByte n] := by
  decide +kernel

theorem digitValue_digitByte : ∀ n < 16, digitValue (digitByte n) = some n := by
  decide +kernel

theorem isBlank_digitChar : ∀ n < 16, Blank.isBlank (digitChar n) = false := by
  decide +kernel

/-- The digits of a byte, high half first. -/
def pair (b : UInt8) : List Char := [digitChar (b.toNat / 16), digitChar (b.toNat % 16)]

theorem half_lt (b : UInt8) : b.toNat / 16 < 16 ∧ b.toNat % 16 < 16 := by
  have := b.toNat_lt
  omega

theorem toList_encode (bytes : Bytes) : (encode bytes).toList = bytes.flatMap pair :=
  String.toList_ofList

theorem utf8_encode (bytes : Bytes) :
    Utf8.encode (encode bytes) =
      bytes.flatMap fun b => [digitByte (b.toNat / 16), digitByte (b.toNat % 16)] := by
  rw [Utf8.encode, toList_encode]
  induction bytes with
  | nil => rfl
  | cons b rest ih =>
    obtain ⟨hi, lo⟩ := half_lt b
    simp only [List.flatMap_cons, List.flatMap_append, ih, pair, List.flatMap_cons,
      List.flatMap_nil, encodeChar_digitChar _ hi, encodeChar_digitChar _ lo, List.append_nil]
    rfl

/-- Digit bytes that read as their values decode to the bytes they spell, whichever bytes stand
for the digits. -/
theorem decodePairs_spelled (digit : Nat → UInt8) (hd : ∀ n < 16, digitValue (digit n) = some n)
    (bytes : Bytes) (position : Nat) :
    decodePairs position (bytes.flatMap fun b => [digit (b.toNat / 16), digit (b.toNat % 16)]) =
      .ok bytes := by
  induction bytes generalizing position with
  | nil => rfl
  | cons b rest ih =>
    obtain ⟨hi, lo⟩ := half_lt b
    -- the pair of digits of `b` gives `b` back, then the rest reads as before
    have hb : (b.toNat / 16 * 16 + b.toNat % 16).toUInt8 = b := by
      rw [show b.toNat / 16 * 16 + b.toNat % 16 = b.toNat by omega]
      exact UInt8.ofNat_toNat
    simp only [List.flatMap_cons, List.cons_append, List.nil_append, decodePairs, hd _ hi, hd _ lo,
      ih, hb]
    rfl

theorem decodePairs_digits (bytes : Bytes) (position : Nat) :
    decodePairs position
      (bytes.flatMap fun b => [digitByte (b.toNat / 16), digitByte (b.toNat % 16)]) = .ok bytes :=
  decodePairs_spelled digitByte digitValue_digitByte bytes position

theorem decode_encode (bytes : Bytes) : decode (encode bytes) = .ok bytes := by
  have heven : (Utf8.encode (encode bytes)).length % 2 = 0 := by
    rw [utf8_encode]
    induction bytes with
    | nil => rfl
    | cons b rest ih =>
      simp only [List.flatMap_cons, List.length_append, List.length_cons, List.length_nil] at ih ⊢
      omega
  simp only [decode, heven]
  rw [if_neg (by decide), utf8_encode]
  exact decodePairs_digits bytes 0

theorem trim_encode (bytes : Bytes) : Blank.trim (encode bytes) = encode bytes := by
  have hnb : ∀ c ∈ (encode bytes).toList, Blank.isBlank c = false := by
    intro c hc
    rw [toList_encode, List.mem_flatMap] at hc
    obtain ⟨b, -, hc⟩ := hc
    obtain ⟨hi, lo⟩ := half_lt b
    simp only [pair, List.mem_cons, List.not_mem_nil, or_false] at hc
    rcases hc with rfl | rfl
    · exact isBlank_digitChar _ hi
    · exact isBlank_digitChar _ lo
  -- with no blank at either end, trimming drops nothing
  have hkeep : ∀ l : List Char, (∀ c ∈ l, Blank.isBlank c = false) → l.dropWhile Blank.isBlank = l
    | [], _ => rfl
    | c :: _, h => List.dropWhile_cons_of_neg (by simp [h c List.mem_cons_self])
  have hrev : ∀ c ∈ (encode bytes).toList.reverse, Blank.isBlank c = false := fun c hc =>
    hnb c (List.mem_reverse.1 hc)
  rw [Blank.trim, hkeep _ hnb, hkeep _ hrev, List.reverse_reverse, String.ofList_toList]

end Hex

/-! ### Prefixes -/

namespace LogLine

theorem stripPrefix?_append (p rest : List Char) : stripPrefix? p (p ++ rest) = some rest := by
  induction p with
  | nil => rfl
  | cons c p ih => simp [stripPrefix?, ih]

theorem stripPrefix?_cons_ne {c d : Char} {p s : List Char} (h : c ≠ d) :
    stripPrefix? (c :: p) (d :: s) = none := by
  simp [stripPrefix?, h]

theorem bridgeTag_toList : bridgeTag.toList = 'B' :: "ridge: ".toList := by decide

/-- A transfer line reads back as its record. -/
theorem parse_logLine_ofLog {l : TransferLog} (hl : l.Fits) :
    parse (BridgeProgram.logLine (ofLog l)) = some (.ok l) := by
  simp only [parse, BridgeProgram.logLine, ofLog, String.toList_append, stripPrefix?_append,
    Option.getD_some, Option.map_some, String.ofList_toList, TransferLog.display, Hex.trim_encode,
    Hex.decode_encode]
  exact congrArg some (TransferLog.decode_encode hl)

/-- A program's own line that does not start with `B` carries no transfer. -/
theorem parse_logLine_eq_none {text : String} (h : text.toList.head? ≠ some 'B') :
    parse (BridgeProgram.logLine text) = none := by
  simp only [parse, BridgeProgram.logLine, String.toList_append, stripPrefix?_append,
    Option.getD_some, bridgeTag_toList]
  cases ht : text.toList with
  | nil => rfl
  | cons c rest =>
    rw [ht] at h
    have hc : 'B' ≠ c := fun hc => h (by rw [hc]; rfl)
    rw [stripPrefix?_cons_ne hc]
    rfl

/-- A program line whose text starts with a word that does not start with `B` carries no
transfer. -/
theorem parse_logLine_append_eq_none {p x : String} (hp : p.toList ≠ [])
    (hb : p.toList.head? ≠ some 'B') : parse (BridgeProgram.logLine (p ++ x)) = none := by
  apply parse_logLine_eq_none
  rw [String.toList_append, List.head?_append]
  cases hq : p.toList with
  | nil => exact absurd hq hp
  | cons c rest => rw [hq] at hb; exact hb

theorem stripPrefix?_append_left (p q rest : List Char) :
    stripPrefix? (p ++ q) (p ++ rest) = stripPrefix? q rest := by
  induction p with
  | nil => rfl
  | cons c p ih => simp [stripPrefix?, ih]

/-- A line that starts with `Program ` and then anything but `l` carries no transfer. -/
theorem parse_program_eq_none {x : String} (hx : x.toList.head? ≠ some 'l') :
    parse ("Program " ++ x) = none := by
  have hlog : programLogPrefix.toList = "Program ".toList ++ 'l' :: "og: ".toList := by decide
  have hstrip : stripPrefix? programLogPrefix.toList ("Program " ++ x).toList = none := by
    rw [hlog, String.toList_append, stripPrefix?_append_left]
    cases hxs : x.toList with
    | nil => rfl
    | cons c rest =>
      rw [hxs] at hx
      have hc : 'l' ≠ c := fun hc => hx (by rw [hc]; rfl)
      exact stripPrefix?_cons_ne hc
  have hprog : ("Program " ++ x).toList = 'P' :: ("rogram ".toList ++ x.toList) := by
    rw [String.toList_append]
    rfl
  simp only [parse]
  rw [hstrip, Option.getD_none, hprog, bridgeTag_toList, stripPrefix?_cons_ne (by decide)]
  rfl

end LogLine

/-- No base-58 text has an `l` in it. -/
theorem Base58.l_not_mem_encode (bytes : Bytes) : 'l' ∉ (Base58.encode bytes).toList := by
  have hdigit : ∀ d, Base58.alphabet.getD d '1' ≠ 'l' := by
    intro d
    rw [List.getD_eq_getElem?_getD]
    cases hd : Base58.alphabet[d]? with
    | none => decide
    | some c =>
      have hc : c ∈ Base58.alphabet := List.mem_of_getElem? hd
      intro hl
      rw [Option.getD_some] at hl
      subst hl
      exact absurd hc (by decide)
  simp only [Base58.encode, String.toList_ofList, List.mem_append, List.mem_replicate,
    List.mem_map, not_or, not_exists, not_and]
  exact ⟨fun _ h => absurd h (by decide), fun d _ => hdigit d⟩

namespace LogLine

theorem head_base58_append_ne (program : Address) (rest : String) (hr : rest.toList.head? ≠ some 'l') :
    (program.toBase58 ++ rest).toList.head? ≠ some 'l' := by
  rw [String.toList_append]
  cases hb : program.toBase58.toList with
  | nil => simpa using hr
  | cons c cs =>
    intro h
    have hc : c = 'l' := by simpa using h
    exact Base58.l_not_mem_encode program.bytes (by rw [← hc]; exact hb ▸ List.mem_cons_self)

/-- The line that opens an instruction carries no transfer. -/
theorem parse_invoke (program : Address) :
    parse ("Program " ++ program.toBase58 ++ " invoke [1]") = none := by
  rw [String.append_assoc]
  exact parse_program_eq_none (head_base58_append_ne program _ (by decide))

/-- The line that closes an instruction carries no transfer. -/
theorem parse_success (program : Address) :
    parse ("Program " ++ program.toBase58 ++ " success") = none := by
  rw [String.append_assoc]
  exact parse_program_eq_none (head_base58_append_ne program _ (by decide))

end LogLine

end TokenBridge
