import Mathlib.Algebra.BigOperators.Intervals
import Mathlib.Algebra.BigOperators.Ring.Finset
import Mathlib.Tactic.Ring
import LogicSignature.Varint

/-
Decoding of variable-length integers, against their grammar.

An encoding is a run of at most nine bytes that say that another one follows, and a last byte that
does not; a tenth byte carries a single bit. The number it spells is the base-128 number of the low
seven bits of its bytes. The decoder collects these bits with shifts and disjunctions; this module
shows that it finds exactly the encodings, with exactly the numbers they spell, and how it fails on
everything else.
-/

namespace LogicSignature.Varint

/-- A byte that says that another one follows. -/
def Continues (byte : UInt8) : Prop := 0x80 ≤ byte.toNat

/-- The number that the low seven bits of bytes make, the first byte least. -/
def payload : List UInt8 → Nat
  | [] => 0
  | byte :: rest => byte.toNat % 128 + 128 * payload rest

/-- Bytes that are one whole encoding of a number. The run before the last byte has at most nine
bytes, and behind nine bytes there is room for one bit. -/
inductive Spells : List UInt8 → Nat → Prop
  | intro (run : List UInt8) (last : UInt8)
      (hRun : ∀ byte ∈ run, Continues byte) (hLast : last.toNat < 0x80)
      (hLength : run.length < maxBytes) (hWidth : run.length + 1 = maxBytes → last.toNat ≤ 1) :
      Spells (run ++ [last]) (payload (run ++ [last]))

/-- What stands at the start of a byte sequence: an encoding, only continuing bytes up to the end, a
tenth byte with too many bits, or ten continuing bytes and one more byte. -/
inductive Reading : List UInt8 → Outcome → Prop
  | decoded (encoding rest : List UInt8) (number : Nat) (hSpells : Spells encoding number) :
      Reading (encoding ++ rest) (.decoded number encoding.length)
  | exhausted (run : List UInt8) (hRun : ∀ byte ∈ run, Continues byte)
      (hLength : run.length ≤ maxBytes) :
      Reading run .exhausted
  | tooWide (run rest : List UInt8) (last : UInt8) (hRun : ∀ byte ∈ run, Continues byte)
      (hLength : run.length + 1 = maxBytes) (hLast : last.toNat < 0x80) (hWidth : 1 < last.toNat) :
      Reading (run ++ last :: rest) (.malformed maxBytes)
  | tooLong (run rest : List UInt8) (next : UInt8) (hRun : ∀ byte ∈ run, Continues byte)
      (hLength : run.length = maxBytes) :
      Reading (run ++ next :: rest) (.malformed (maxBytes + 1))

/-! ### Payload arithmetic -/

theorem payload_append (left right : List UInt8) :
    payload (left ++ right) = payload left + 128 ^ left.length * payload right := by
  induction left with
  | nil => simp [payload]
  | cons byte rest ih =>
      simp only [List.cons_append, payload, ih, List.length_cons]
      ring

theorem payload_lt (bytes : List UInt8) : payload bytes < 128 ^ bytes.length := by
  induction bytes with
  | nil => simp [payload]
  | cons byte rest ih =>
      have hGroup : byte.toNat % 128 < 128 := Nat.mod_lt _ (by decide)
      simp only [payload, List.length_cons, pow_succ]
      omega

theorem payload_take_eq_sum (bytes : List UInt8) (length : Nat) (hLength : length ≤ bytes.length) :
    payload (bytes.take length) =
      ∑ index ∈ Finset.range length, (bytes.getD index 0).toNat % 128 * 128 ^ index := by
  induction bytes generalizing length with
  | nil =>
      have hZero : length = 0 := by simpa using hLength
      subst hZero
      rfl
  | cons byte rest ih =>
      cases length with
      | zero => rfl
      | succ length =>
          have hRest : length ≤ rest.length := by simpa using hLength
          rw [List.take_succ_cons, payload, ih length hRest, Finset.sum_range_succ', Finset.mul_sum,
            Nat.add_comm]
          congr 1
          · apply Finset.sum_congr rfl
            intro index _
            simp only [List.getD_cons_succ, pow_succ]
            ring
          · simp

/-- An encoding spells a number of 64 bits. Nine groups have 63 bits, and a tenth byte adds one. -/
theorem Spells.number_lt {encoding : List UInt8} {number : Nat} (hSpells : Spells encoding number) :
    number < 2 ^ 64 := by
  cases hSpells with
  | intro run last hRun hLast hLength hWidth =>
      have hRunPayload := payload_lt run
      have hGroup : payload [last] = last.toNat := by simpa [payload] using Nat.mod_eq_of_lt hLast
      rw [payload_append, hGroup]
      by_cases hFull : run.length + 1 = maxBytes
      · have hBit := hWidth hFull
        have hNine : run.length = 9 := by simpa [maxBytes] using hFull
        rw [hNine] at hRunPayload ⊢
        omega
      · have hShort : run.length ≤ 8 := by
          simp only [maxBytes] at hLength hFull
          omega
        have hPower : 128 ^ run.length ≤ 128 ^ 8 := Nat.pow_le_pow_right (by decide) hShort
        have hProduct : 128 ^ run.length * last.toNat ≤ 128 ^ 8 * 127 :=
          Nat.mul_le_mul hPower (Nat.le_of_lt_succ hLast)
        omega

/-- A disjunction with a group above all bits of a number is a sum. -/
theorem lor_shiftLeft_eq_add (number group index : Nat) (hNumber : number < 128 ^ index) :
    number ||| group <<< (7 * index) = number + group * 128 ^ index := by
  have hPower : (128 : Nat) ^ index = 2 ^ (7 * index) := by
    rw [show (128 : Nat) = 2 ^ 7 from rfl, ← pow_mul]
  rw [hPower] at hNumber ⊢
  rw [Nat.shiftLeft_eq, Nat.or_comm, Nat.mul_comm group, ← Nat.two_pow_add_eq_or_of_lt hNumber]
  omega

/-! ### One byte and a run of bytes -/

theorem low_bits_eq_mod (number : Nat) : number &&& 0x7f = number % 128 :=
  Nat.and_two_pow_sub_one_eq_mod number 7

theorem decodeFrom_continues (index number : Nat) (byte : UInt8) (rest : List UInt8)
    (hIndex : index < maxBytes) (hNumber : number < 128 ^ index) (hByte : Continues byte) :
    decodeFrom index (7 * index) number (byte :: rest) =
      decodeFrom (index + 1) (7 * (index + 1)) (number + byte.toNat % 128 * 128 ^ index) rest := by
  have hNotLast : ¬ byte.toNat < 0x80 := Nat.not_lt.mpr hByte
  rw [decodeFrom, if_neg (Nat.ne_of_lt hIndex), if_neg hNotLast, low_bits_eq_mod,
    lor_shiftLeft_eq_add number _ index hNumber, Nat.mul_add]

/-- A run of continuing bytes adds its payload. -/
theorem decodeFrom_run (run : List UInt8) (hRun : ∀ byte ∈ run, Continues byte) :
    ∀ (index number : Nat) (rest : List UInt8), index + run.length ≤ maxBytes →
      number < 128 ^ index →
      decodeFrom index (7 * index) number (run ++ rest) =
        decodeFrom (index + run.length) (7 * (index + run.length))
          (number + 128 ^ index * payload run) rest := by
  induction run with
  | nil => simp [payload]
  | cons byte run ih =>
      intro index number rest hLength hNumber
      have hByte : Continues byte := hRun byte List.mem_cons_self
      have hRest : ∀ other ∈ run, Continues other :=
        fun other hOther => hRun other (List.mem_cons_of_mem byte hOther)
      have hLengthRest : index + 1 + run.length ≤ maxBytes := by
        simp only [List.length_cons] at hLength
        omega
      -- What was read stays below the next group, so that group can be added by a disjunction.
      have hNumberRest : number + byte.toNat % 128 * 128 ^ index < 128 ^ (index + 1) := by
        have hGroup : byte.toNat % 128 ≤ 127 := Nat.le_of_lt_succ (Nat.mod_lt _ (by decide))
        have hProduct := Nat.mul_le_mul_right (128 ^ index) hGroup
        rw [pow_succ]
        omega
      rw [List.cons_append, decodeFrom_continues index number byte (run ++ rest) (by omega) hNumber
        hByte, ih hRest (index + 1) _ rest hLengthRest hNumberRest]
      simp only [List.length_cons, payload]
      congr 1
      · omega
      · omega
      · ring

theorem decode_run (run rest : List UInt8) (hRun : ∀ byte ∈ run, Continues byte)
    (hLength : run.length ≤ maxBytes) :
    decode (run ++ rest) = decodeFrom run.length (7 * run.length) (payload run) rest := by
  have h := decodeFrom_run run hRun 0 0 rest (by omega) (by simp)
  simpa [decode] using h

/-! ### The outcome is the reading -/

theorem Reading.decode_eq {bytes : List UInt8} {outcome : Outcome}
    (hReading : Reading bytes outcome) : decode bytes = outcome := by
  cases hReading with
  | decoded encoding rest number hSpells =>
      cases hSpells with
      | intro run last hRun hLast hLength hWidth =>
          have hRoom : ¬ (run.length + 1 = maxBytes ∧ 1 < last.toNat) := by
            intro hBoth
            have hBit := hWidth hBoth.1
            omega
          have hLow : last.toNat % 128 = last.toNat := Nat.mod_eq_of_lt hLast
          rw [List.append_assoc, List.singleton_append,
            decode_run run _ hRun (Nat.le_of_lt hLength), decodeFrom,
            if_neg (Nat.ne_of_lt hLength), if_pos hLast, if_neg hRoom,
            lor_shiftLeft_eq_add _ _ _ (payload_lt run), payload_append]
          simp [payload, hLow, Nat.mul_comm]
  | exhausted _ hRun hLength =>
      have h := decode_run bytes [] hRun hLength
      rwa [List.append_nil] at h
  | tooWide run rest last hRun hLength hLast hWidth =>
      have hIndex : run.length ≠ maxBytes := by omega
      rw [decode_run run _ hRun (by omega), decodeFrom, if_neg hIndex, if_pos hLast,
        if_pos ⟨hLength, hWidth⟩, hLength]
  | tooLong run rest next hRun hLength =>
      rw [decode_run run _ hRun (Nat.le_of_eq hLength), decodeFrom, if_pos hLength, hLength]

/-- A byte sequence starts with a longest run of at most ten continuing bytes. -/
theorem exists_run (bytes : List UInt8) :
    ∃ run rest, bytes = run ++ rest ∧ (∀ byte ∈ run, Continues byte) ∧
      (rest = [] ∧ run.length ≤ maxBytes ∨
        (∃ next tail, rest = next :: tail ∧ run.length = maxBytes) ∨
        ∃ last tail, rest = last :: tail ∧ last.toNat < 0x80 ∧ run.length < maxBytes) := by
  -- The bound is any room, since one byte of the run takes one place of it.
  suffices h : ∀ room : Nat, ∃ run rest, bytes = run ++ rest ∧ (∀ byte ∈ run, Continues byte) ∧
      (rest = [] ∧ run.length ≤ room ∨
        (∃ next tail, rest = next :: tail ∧ run.length = room) ∨
        ∃ last tail, rest = last :: tail ∧ last.toNat < 0x80 ∧ run.length < room) from h maxBytes
  induction bytes with
  | nil =>
      intro room
      exact ⟨[], [], rfl, by simp, .inl ⟨rfl, Nat.zero_le room⟩⟩
  | cons byte bytes ih =>
      intro room
      cases room with
      | zero => exact ⟨[], byte :: bytes, rfl, by simp, .inr (.inl ⟨byte, bytes, rfl, rfl⟩)⟩
      | succ room =>
          by_cases hByte : byte.toNat < 0x80
          · exact ⟨[], byte :: bytes, rfl, by simp,
              .inr (.inr ⟨byte, bytes, rfl, hByte, Nat.succ_pos room⟩)⟩
          · obtain ⟨run, rest, hBytes, hRun, hEnd⟩ := ih room
            refine ⟨byte :: run, rest, by rw [hBytes, List.cons_append], ?_, ?_⟩
            · intro other hOther
              rcases List.mem_cons.mp hOther with hSame | hTail
              · rw [hSame]
                exact Nat.not_lt.mp hByte
              · exact hRun other hTail
            · simpa using hEnd

theorem exists_reading (bytes : List UInt8) : ∃ outcome, Reading bytes outcome := by
  obtain ⟨run, rest, hBytes, hRun, hEnd⟩ := exists_run bytes
  subst hBytes
  rcases hEnd with ⟨hRest, hLength⟩ | ⟨next, tail, hRest, hLength⟩ |
    ⟨last, tail, hRest, hLast, hLength⟩
  · subst hRest
    rw [List.append_nil]
    exact ⟨_, .exhausted run hRun hLength⟩
  · subst hRest
    exact ⟨_, .tooLong run tail next hRun hLength⟩
  · subst hRest
    by_cases hWide : run.length + 1 = maxBytes ∧ 1 < last.toNat
    · exact ⟨_, .tooWide run tail last hRun hWide.1 hLast hWide.2⟩
    · have hWidth : run.length + 1 = maxBytes → last.toNat ≤ 1 := by
        intro hFull
        by_contra hBits
        exact hWide ⟨hFull, Nat.lt_of_not_le hBits⟩
      have hReading := Reading.decoded (run ++ [last]) tail _
        (.intro run last hRun hLast hLength hWidth)
      rw [List.append_assoc, List.singleton_append] at hReading
      exact ⟨_, hReading⟩

/-- The decoder's outcome is the reading of the bytes, and there is no other. -/
theorem decode_eq_iff_reading (bytes : List UInt8) (outcome : Outcome) :
    decode bytes = outcome ↔ Reading bytes outcome := by
  constructor
  · intro hDecode
    obtain ⟨other, hReading⟩ := exists_reading bytes
    have hSame : outcome = other := hDecode.symm.trans hReading.decode_eq
    rwa [hSame]
  · exact Reading.decode_eq

theorem decode_eq_decoded_iff (bytes : List UInt8) (number length : Nat) :
    decode bytes = .decoded number length ↔
      ∃ encoding rest, bytes = encoding ++ rest ∧ Spells encoding number ∧
        length = encoding.length := by
  rw [decode_eq_iff_reading]
  constructor
  · intro hReading
    cases hReading with
    | decoded encoding rest _ hSpells => exact ⟨encoding, rest, rfl, hSpells, rfl⟩
  · rintro ⟨encoding, rest, hBytes, hSpells, hLength⟩
    subst hBytes hLength
    exact .decoded encoding rest number hSpells

theorem length_le_of_decode_eq {bytes : List UInt8} {number length : Nat}
    (hDecode : decode bytes = .decoded number length) : length ≤ bytes.length := by
  obtain ⟨encoding, rest, hBytes, _, hLength⟩ :=
    (decode_eq_decoded_iff bytes number length).mp hDecode
  rw [hBytes, hLength, List.length_append]
  exact Nat.le_add_right _ _

theorem Spells.decode_append {encoding : List UInt8} {number : Nat}
    (hSpells : Spells encoding number) (rest : List UInt8) :
    decode (encoding ++ rest) = .decoded number encoding.length :=
  (Reading.decoded encoding rest number hSpells).decode_eq

/-- A number is decoded from its encoding alone, whatever stands behind it. -/
theorem decode_take_append {bytes : List UInt8} {number length : Nat}
    (hDecode : decode bytes = .decoded number length) (rest : List UInt8) :
    decode (bytes.take length ++ rest) = .decoded number length := by
  obtain ⟨encoding, tail, hBytes, hSpells, hLength⟩ :=
    (decode_eq_decoded_iff bytes number length).mp hDecode
  rw [hBytes, hLength, List.take_left]
  exact hSpells.decode_append rest

theorem Spells.length_pos {encoding : List UInt8} {number : Nat}
    (hSpells : Spells encoding number) : 0 < encoding.length := by
  cases hSpells
  simp

theorem length_pos_of_decode_eq {bytes : List UInt8} {number length : Nat}
    (hDecode : decode bytes = .decoded number length) : 0 < length := by
  obtain ⟨encoding, rest, _, hSpells, hLength⟩ :=
    (decode_eq_decoded_iff bytes number length).mp hDecode
  rw [hLength]
  exact hSpells.length_pos

/-! ### Outcomes by position -/

/-- The first bytes, as many as `count`, are there and continue. -/
def ContinuesFor (bytes : List UInt8) (count : Nat) : Prop :=
  ∀ index < count, ∃ byte, bytes[index]? = some byte ∧ Continues byte

/-- The first bytes, as many as `length`, end an encoding: all but the last continue, the last does
not, and a tenth one is at most one. -/
structure EndsAt (bytes : List UInt8) (length : Nat) : Prop where
  pos : 1 ≤ length
  le_maxBytes : length ≤ maxBytes
  run : ContinuesFor bytes (length - 1)
  last : ∃ byte, bytes[length - 1]? = some byte ∧ byte.toNat < 0x80 ∧
    (length = maxBytes → byte.toNat ≤ 1)

theorem continuesFor_append_iff (run rest : List UInt8) :
    ContinuesFor (run ++ rest) run.length ↔ ∀ byte ∈ run, Continues byte := by
  constructor
  · intro hContinues byte hByte
    obtain ⟨index, hIndex, hGet⟩ := List.mem_iff_getElem.mp hByte
    obtain ⟨other, hOther, hHigh⟩ := hContinues index hIndex
    rw [List.getElem?_append_left hIndex, List.getElem?_eq_getElem hIndex, hGet] at hOther
    rwa [Option.some.inj hOther]
  · intro hRun index hIndex
    refine ⟨run[index], ?_, hRun _ (List.getElem_mem hIndex)⟩
    rw [List.getElem?_append_left hIndex, List.getElem?_eq_getElem hIndex]

theorem ContinuesFor.exists_run {bytes : List UInt8} {count : Nat}
    (hContinues : ContinuesFor bytes count) :
    ∃ run rest, bytes = run ++ rest ∧ run.length = count ∧ ∀ byte ∈ run, Continues byte := by
  have hLength : count ≤ bytes.length := by
    by_contra hShort
    obtain ⟨byte, hByte, _⟩ := hContinues bytes.length (Nat.lt_of_not_le hShort)
    simp at hByte
  have hTake : (bytes.take count).length = count := List.length_take_of_le hLength
  refine ⟨bytes.take count, bytes.drop count, (List.take_append_drop count bytes).symm, hTake, ?_⟩
  rw [← continuesFor_append_iff _ (bytes.drop count), List.take_append_drop, hTake]
  exact hContinues

theorem decode_eq_decoded_iff_endsAt (bytes : List UInt8) (number length : Nat) :
    decode bytes = .decoded number length ↔
      EndsAt bytes length ∧ number = payload (bytes.take length) := by
  rw [decode_eq_decoded_iff]
  constructor
  · rintro ⟨encoding, rest, hBytes, hSpells, hLength⟩
    cases hSpells with
    | intro run last hRun hLast hRunLength hWidth =>
        subst hBytes
        have hEnd : length = run.length + 1 := by simpa using hLength
        have hBefore : length - 1 = run.length := by omega
        refine ⟨⟨by omega, by omega, ?_, last, ?_, hLast, ?_⟩, ?_⟩
        · rw [hBefore, List.append_assoc, continuesFor_append_iff]
          exact hRun
        · rw [hBefore, List.append_assoc, List.getElem?_append_right (Nat.le_refl _)]
          simp
        · intro hFull
          exact hWidth (by omega)
        · rw [hLength, List.take_left]
  · rintro ⟨hEnds, hNumber⟩
    obtain ⟨run, rest, hBytes, hRunLength, hRun⟩ := hEnds.run.exists_run
    obtain ⟨last, hLast, hLow, hWidth⟩ := hEnds.last
    have hPos := hEnds.pos
    have hMax := hEnds.le_maxBytes
    subst hBytes
    rw [← hRunLength, List.getElem?_append_right (Nat.le_refl _), Nat.sub_self] at hLast
    obtain ⟨tail, hRest⟩ : ∃ tail, rest = last :: tail := by
      cases rest with
      | nil => simp at hLast
      | cons head tail =>
          have hSame : head = last := by simpa using hLast
          exact ⟨tail, by rw [hSame]⟩
    subst hRest
    have hSplit : run ++ last :: tail = (run ++ [last]) ++ tail := by simp
    have hEncoding : length = (run ++ [last]).length := by
      rw [List.length_append, List.length_singleton, hRunLength]
      omega
    refine ⟨run ++ [last], tail, hSplit, ?_, hEncoding⟩
    rw [hNumber, hSplit, hEncoding, List.take_left]
    exact .intro run last hRun hLow (by omega) (fun hFull => hWidth (by omega))

theorem decode_eq_exhausted_iff (bytes : List UInt8) :
    decode bytes = .exhausted ↔ bytes.length ≤ maxBytes ∧ ∀ byte ∈ bytes, Continues byte := by
  rw [decode_eq_iff_reading]
  constructor
  · intro hReading
    cases hReading with
    | exhausted _ hRun hLength => exact ⟨hLength, hRun⟩
  · rintro ⟨hLength, hRun⟩
    exact .exhausted bytes hRun hLength

theorem decode_eq_tooWide_iff (bytes : List UInt8) :
    decode bytes = .malformed maxBytes ↔
      ContinuesFor bytes (maxBytes - 1) ∧
        ∃ tenth, bytes[maxBytes - 1]? = some tenth ∧ 2 ≤ tenth.toNat ∧ tenth.toNat < 0x80 := by
  rw [decode_eq_iff_reading]
  constructor
  · intro hReading
    generalize hOutcome : Outcome.malformed maxBytes = outcome at hReading
    cases hReading with
    | decoded => cases hOutcome
    | exhausted => cases hOutcome
    | tooLong => simp [maxBytes] at hOutcome
    | tooWide run rest last hRun hLength hLast hWidth =>
        have hBefore : maxBytes - 1 = run.length := by omega
        rw [hBefore, continuesFor_append_iff, List.getElem?_append_right (Nat.le_refl _)]
        exact ⟨hRun, last, by simp, hWidth, hLast⟩
  · rintro ⟨hContinues, tenth, hTenth, hWidth, hLast⟩
    obtain ⟨run, rest, hBytes, hLength, hRun⟩ := hContinues.exists_run
    subst hBytes
    rw [← hLength, List.getElem?_append_right (Nat.le_refl _), Nat.sub_self] at hTenth
    cases rest with
    | nil => simp at hTenth
    | cons head tail =>
        have hSame : head = tenth := by simpa using hTenth
        subst hSame
        exact .tooWide run tail head hRun (by rw [hLength]; rfl) hLast hWidth

theorem decode_eq_tooLong_iff (bytes : List UInt8) :
    decode bytes = .malformed (maxBytes + 1) ↔
      maxBytes + 1 ≤ bytes.length ∧ ContinuesFor bytes maxBytes := by
  rw [decode_eq_iff_reading]
  constructor
  · intro hReading
    generalize hOutcome : Outcome.malformed (maxBytes + 1) = outcome at hReading
    cases hReading with
    | decoded => cases hOutcome
    | exhausted => cases hOutcome
    | tooWide => simp [maxBytes] at hOutcome
    | tooLong run rest next hRun hLength =>
        rw [← hLength, continuesFor_append_iff]
        refine ⟨?_, hRun⟩
        simp only [List.length_append, List.length_cons]
        omega
  · rintro ⟨hLong, hContinues⟩
    obtain ⟨run, rest, hBytes, hLength, hRun⟩ := hContinues.exists_run
    subst hBytes
    cases rest with
    | nil =>
        rw [List.append_nil] at hLong
        omega
    | cons head tail => exact .tooLong run tail head hRun hLength

/-- An outcome that examined at least one byte, where it reports how many. -/
def Outcome.Proper : Outcome → Prop
  | .decoded _ length => 1 ≤ length
  | .exhausted => True
  | .malformed examined => 1 ≤ examined

theorem Outcome.Proper.eq_of_same {left right : Outcome} (hLeft : left.Proper)
    (hRight : right.Proper)
    (hSame : (left.number, left.length) = (right.number, right.length)) : left = right := by
  have hNumber : left.number = right.number := congrArg Prod.fst hSame
  have hLength : left.length = right.length := congrArg Prod.snd hSame
  -- The sign of the length tells the constructor, and its amount the rest.
  cases left with
  | decoded number length =>
      have hPositive : 1 ≤ length := hLeft
      cases right with
      | decoded other otherLength =>
          have hLengths : length = otherLength := Int.ofNat.inj hLength
          rw [show number = other from hNumber, hLengths]
      | exhausted =>
          have hZero : (length : Int) = 0 := hLength
          omega
      | malformed examined =>
          have hNegative : (length : Int) = -(examined : Int) := hLength
          omega
  | exhausted =>
      cases right with
      | decoded other otherLength =>
          have hPositive : 1 ≤ otherLength := hRight
          have hZero : (0 : Int) = otherLength := hLength
          omega
      | exhausted => rfl
      | malformed examined =>
          have hPositive : 1 ≤ examined := hRight
          have hZero : (0 : Int) = -(examined : Int) := hLength
          omega
  | malformed examined =>
      have hPositive : 1 ≤ examined := hLeft
      cases right with
      | decoded other otherLength =>
          have hNegative : -(examined : Int) = otherLength := hLength
          omega
      | exhausted =>
          have hZero : -(examined : Int) = 0 := hLength
          omega
      | malformed others =>
          have hExamined : -(examined : Int) = -(others : Int) := hLength
          congr 1
          omega

theorem Reading.proper {bytes : List UInt8} {outcome : Outcome}
    (hReading : Reading bytes outcome) : outcome.Proper := by
  cases hReading with
  | decoded encoding rest number hSpells => exact hSpells.length_pos
  | exhausted => trivial
  | tooWide => simp [Outcome.Proper, maxBytes]
  | tooLong => simp [Outcome.Proper]

theorem decode_same_iff (bytes : List UInt8) (outcome : Outcome) (hProper : outcome.Proper) :
    ((decode bytes).number, (decode bytes).length) = (outcome.number, outcome.length) ↔
      decode bytes = outcome := by
  constructor
  · intro hSame
    have hReading : Reading bytes (decode bytes) := (decode_eq_iff_reading bytes _).mp rfl
    exact hReading.proper.eq_of_same hProper hSame
  · intro hDecode
    rw [hDecode]

theorem EndsAt.le_length {bytes : List UInt8} {length : Nat} (hEnds : EndsAt bytes length) :
    length ≤ bytes.length := by
  obtain ⟨byte, hByte, _⟩ := hEnds.last
  have hInside : length - 1 < bytes.length := (List.getElem?_eq_some_iff.mp hByte).1
  have hPos := hEnds.pos
  omega

/-- The four outcomes of decoding at an offset, as number and length, each with the bytes on which
it occurs. They exclude each other, since their lengths differ, and there is no other. -/
theorem decodeAt_outcomes (bytes : List UInt8) (offset : Nat) :
    ∃ outcome, decodeAt bytes (offset : Int) = .ok outcome ∧
      (∀ number length : Nat, 1 ≤ length →
        ((outcome.number, outcome.length) = (number, (length : Int)) ↔
          EndsAt (bytes.drop offset) length ∧
            number = ∑ index ∈ Finset.range length,
              ((bytes.drop offset).getD index 0).toNat % 128 * 128 ^ index)) ∧
      (∀ length : Nat, EndsAt (bytes.drop offset) length →
        length ≤ 10 ∧ outcome.number < 2 ^ 64 ∧ offset + length ≤ bytes.length) ∧
      ((outcome.number, outcome.length) = (0, 0) ↔
        (bytes.drop offset).length ≤ 10 ∧ ∀ byte ∈ bytes.drop offset, Continues byte) ∧
      ((outcome.number, outcome.length) = (0, -10) ↔
        ContinuesFor (bytes.drop offset) 9 ∧
          ∃ tenth, (bytes.drop offset)[9]? = some tenth ∧ 2 ≤ tenth.toNat ∧ tenth.toNat < 128) ∧
      ((outcome.number, outcome.length) = (0, -11) ↔
        11 ≤ (bytes.drop offset).length ∧ ContinuesFor (bytes.drop offset) 10) ∧
      ((∃ length : Nat, EndsAt (bytes.drop offset) length ∧ outcome.length = length) ∨
        (outcome.number, outcome.length) = (0, 0) ∨ (outcome.number, outcome.length) = (0, -10) ∨
        (outcome.number, outcome.length) = (0, -11)) := by
  have hLength : (bytes.drop offset).length = bytes.length - offset := List.length_drop
  refine ⟨decode (bytes.drop offset), by simp [decodeAt], ?_⟩
  generalize bytes.drop offset = suffix at hLength ⊢
  refine ⟨?_, ?_, ?_, ?_, ?_, ?_⟩
  · intro number length hPos
    have hDecoded := (decode_same_iff suffix (.decoded number length) hPos).trans
      (decode_eq_decoded_iff_endsAt suffix number length)
    refine hDecoded.trans (and_congr_right fun hEnds => ?_)
    rw [payload_take_eq_sum suffix length hEnds.le_length]
  · intro length hEnds
    have hDecode := (decode_eq_decoded_iff_endsAt suffix _ length).mpr ⟨hEnds, rfl⟩
    obtain ⟨encoding, rest, _, hSpells, _⟩ := (decode_eq_decoded_iff _ _ _).mp hDecode
    have hInside := hEnds.le_length
    have hPos := hEnds.pos
    rw [hDecode]
    exact ⟨hEnds.le_maxBytes, hSpells.number_lt, by omega⟩
  · exact (decode_same_iff suffix .exhausted trivial).trans (decode_eq_exhausted_iff suffix)
  · exact (decode_same_iff suffix (.malformed maxBytes) (Nat.succ_pos 9)).trans
      (decode_eq_tooWide_iff suffix)
  · exact (decode_same_iff suffix (.malformed (maxBytes + 1)) (Nat.succ_pos 10)).trans
      (decode_eq_tooLong_iff suffix)
  · have hReading := (decode_eq_iff_reading suffix _).mp rfl
    generalize hDecode : decode suffix = outcome at hReading ⊢
    cases hReading with
    | decoded encoding rest number hSpells =>
        exact .inl ⟨_, ((decode_eq_decoded_iff_endsAt _ _ _).mp hDecode).1, rfl⟩
    | exhausted => exact .inr (.inl rfl)
    | tooWide => exact .inr (.inr (.inl rfl))
    | tooLong => exact .inr (.inr (.inr rfl))

end LogicSignature.Varint
