import LogicSignature.Proofs.VarintDecoding

/-
Encoding of variable-length integers, and its place among all encodings of a number.

A number has many encodings, since groups of zeros may follow its highest one. The encoder writes
the one that does not end in such a group. It is the shortest, no other encoding is as short, and
decoding gives the number back whatever stands around it.
-/

namespace LogicSignature.Varint

/-! ### The groups of a number -/

theorem toNat_ofNat_of_lt {number : Nat} (hNumber : number < 256) :
    (UInt8.ofNat number).toNat = number := by
  rw [UInt8.toNat_ofNat']
  exact Nat.mod_eq_of_lt hNumber

theorem payload_singleton {byte : UInt8} (hByte : byte.toNat < 128) :
    payload [byte] = byte.toNat := by
  simpa [payload] using Nat.mod_eq_of_lt hByte

theorem groups_of_lt (bound : Nat) {number : Nat} (hNumber : number < 128) :
    groups (bound + 1) number = [UInt8.ofNat number] := by
  rw [groups, if_pos hNumber]

theorem groups_of_ge (bound : Nat) {number : Nat} (hNumber : 128 ≤ number) :
    groups (bound + 1) number =
      UInt8.ofNat (number % 128 + 128) :: groups bound (number / 128) := by
  rw [groups, if_neg (Nat.not_lt.mpr hNumber)]

theorem groups_shape (bound number : Nat) (hNumber : number < 128 ^ bound) (hBound : 0 < bound) :
    ∃ run last, groups bound number = run ++ [last] ∧ (∀ byte ∈ run, Continues byte) ∧
      last.toNat < 0x80 ∧ run.length < bound ∧ payload (run ++ [last]) = number := by
  induction bound generalizing number with
  | zero => omega
  | succ bound ih =>
      by_cases hSmall : number < 128
      · have hByte := toNat_ofNat_of_lt (show number < 256 by omega)
        refine ⟨[], UInt8.ofNat number, groups_of_lt bound hSmall, by simp, ?_, ?_, ?_⟩
        · rwa [hByte]
        · exact Nat.succ_pos bound
        · simp only [List.nil_append, payload, hByte]
          omega
      · have hLarge : 128 ≤ number := Nat.not_lt.mp hSmall
        have hQuotient : number / 128 < 128 ^ bound := by
          rw [pow_succ] at hNumber
          exact Nat.div_lt_of_lt_mul (by rwa [Nat.mul_comm])
        have hRoom : 0 < bound := by
          rcases Nat.eq_zero_or_pos bound with hZero | hPos
          · rw [hZero] at hNumber
            omega
          · exact hPos
        obtain ⟨run, last, hGroups, hRun, hLast, hLength, hPayload⟩ := ih _ hQuotient hRoom
        have hByte := toNat_ofNat_of_lt (show number % 128 + 128 < 256 by omega)
        refine ⟨UInt8.ofNat (number % 128 + 128) :: run, last, ?_, ?_, hLast, ?_, ?_⟩
        · rw [groups_of_ge bound hLarge, hGroups, List.cons_append]
        · intro byte hMem
          rcases List.mem_cons.mp hMem with hSame | hTail
          · rw [hSame, Continues, hByte]
            omega
          · exact hRun byte hTail
        · rw [List.length_cons]
          omega
        · rw [List.cons_append, payload, hPayload, hByte]
          omega

/-- Where the last byte is not zero, or stands alone, the groups of the payload are the bytes. -/
theorem groups_payload (bound : Nat) (run : List UInt8) (last : UInt8)
    (hRun : ∀ byte ∈ run, Continues byte) (hLast : last.toNat < 0x80) (hLength : run.length < bound)
    (hEnd : run = [] ∨ last ≠ 0) :
    groups bound (payload (run ++ [last])) = run ++ [last] := by
  induction run generalizing bound with
  | nil =>
      obtain ⟨room, hRoom⟩ : ∃ room, bound = room + 1 := ⟨bound - 1, by simp at hLength; omega⟩
      rw [List.nil_append, payload_singleton hLast, hRoom, groups_of_lt room hLast,
        UInt8.ofNat_toNat]
  | cons byte run ih =>
      have hByte : 0x80 ≤ byte.toNat := hRun byte List.mem_cons_self
      have hTail : ∀ other ∈ run, Continues other :=
        fun other hOther => hRun other (List.mem_cons_of_mem byte hOther)
      have hNonzero : last ≠ 0 := hEnd.resolve_left (List.cons_ne_nil byte run)
      obtain ⟨room, hRoom⟩ : ∃ room, bound = room + 1 := ⟨bound - 1, by omega⟩
      rw [List.length_cons] at hLength
      -- The last group counts, so at least one more group follows the first.
      have hPositive : 0 < payload (run ++ [last]) := by
        have hValue : last.toNat ≠ 0 := fun hZero => hNonzero (UInt8.toNat_inj.mp hZero)
        have hPower : 0 < 128 ^ run.length := Nat.pow_pos (by decide)
        rw [payload_append, payload_singleton hLast]
        have hProduct : 0 < 128 ^ run.length * last.toNat :=
          Nat.mul_pos hPower (Nat.pos_of_ne_zero hValue)
        omega
      have hUpper := byte.toNat_lt
      rw [List.cons_append, payload, hRoom, groups_of_ge room (by omega)]
      congr 1
      · apply UInt8.toNat_inj.mp
        rw [toNat_ofNat_of_lt (by omega)]
        omega
      · have hQuotient : (byte.toNat % 128 + 128 * payload (run ++ [last])) / 128 =
            payload (run ++ [last]) := by omega
        rw [hQuotient]
        exact ih room hTail (by omega) (.inr hNonzero)

theorem length_groups_le (bound number count : Nat) (hCount : 0 < count)
    (hNumber : number < 128 ^ count) : (groups bound number).length ≤ count := by
  induction bound generalizing number count with
  | zero => simp [groups]
  | succ bound ih =>
      by_cases hSmall : number < 128
      · rw [groups_of_lt bound hSmall, List.length_singleton]
        exact hCount
      · obtain ⟨fewer, hFewer⟩ : ∃ fewer, count = fewer + 1 := ⟨count - 1, by omega⟩
        rw [hFewer, pow_succ] at hNumber
        have hMore : 0 < fewer := by
          rcases Nat.eq_zero_or_pos fewer with hZero | hPos
          · rw [hZero] at hNumber
            omega
          · exact hPos
        have hRest := ih (number / 128) fewer hMore
          (Nat.div_lt_of_lt_mul (by rwa [Nat.mul_comm]))
        rw [groups_of_ge bound (Nat.not_lt.mp hSmall), List.length_cons]
        omega

/-! ### The encoding of a number -/

theorem maxNumber_eq : (maxNumber : Int) = 2 ^ 64 - 1 := rfl

theorem encode_of_lt {number : Nat} (hNumber : number < 2 ^ 64) :
    encode number = .ok (groups maxBytes number) := by
  have hMax : ¬ (maxNumber : Int) < (number : Int) := by
    rw [maxNumber_eq]
    omega
  rw [encode, if_neg (by omega), if_neg hMax, Int.toNat_natCast]

theorem spells_groups {number : Nat} (hNumber : number < 2 ^ 64) :
    Spells (groups maxBytes number) number := by
  obtain ⟨run, last, hGroups, hRun, hLast, hLength, hPayload⟩ :=
    groups_shape maxBytes number (by simp only [maxBytes]; omega) (by decide)
  -- A tenth group starts at bit 63, so only its lowest bit is left of 64.
  have hWidth : run.length + 1 = maxBytes → last.toNat ≤ 1 := by
    intro hFull
    have hNine : run.length = 9 := by simpa [maxBytes] using hFull
    rw [payload_append, payload_singleton hLast, hNine] at hPayload
    omega
  have hSpells := Spells.intro run last hRun hLast hLength hWidth
  rwa [hPayload, ← hGroups] at hSpells

theorem Spells.length_groups_le {encoding : List UInt8} {number : Nat}
    (hSpells : Spells encoding number) :
    (groups maxBytes number).length ≤ encoding.length := by
  have hPos := hSpells.length_pos
  cases hSpells with
  | intro run last => exact Varint.length_groups_le _ _ _ hPos (payload_lt _)

/-- Of the encodings of a number, the one with the length of the groups is the groups, and it is the
one without a group of zeros at its end. -/
theorem Spells.eq_groups_iff {encoding : List UInt8} {number : Nat}
    (hSpells : Spells encoding number) :
    (encoding = groups maxBytes number ↔ encoding.length = (groups maxBytes number).length) ∧
      (encoding = groups maxBytes number ↔
        encoding.length = 1 ∨ encoding[encoding.length - 1]? ≠ some 0) := by
  cases hSpells with
  | intro run last hRun hLast hLength hWidth =>
      have hFinal : (run ++ [last])[(run ++ [last]).length - 1]? = some last := by simp
      have hEnd : (run = [] ∨ last ≠ 0) ↔
          (run ++ [last]).length = 1 ∨ (run ++ [last])[(run ++ [last]).length - 1]? ≠ some 0 := by
        rw [hFinal]
        simp
      rw [← hEnd]
      have hShort : (run ++ [last]).length =
          (groups maxBytes (payload (run ++ [last]))).length → run = [] ∨ last ≠ 0 := by
        intro hSame
        by_contra hPadded
        push Not at hPadded
        obtain ⟨hMore, hZero⟩ := hPadded
        -- Without the zeros at the end the number fits into one group less.
        have hFits : payload (run ++ [last]) < 128 ^ run.length := by
          rw [payload_append, hZero]
          simpa [payload] using payload_lt run
        have hLess := Varint.length_groups_le maxBytes _ run.length
          (List.length_pos_iff.mpr hMore) hFits
        rw [← hSame, List.length_append, List.length_singleton] at hLess
        omega
      have hCanonical : run = [] ∨ last ≠ 0 →
          run ++ [last] = groups maxBytes (payload (run ++ [last])) :=
        fun hLastGroup => (groups_payload maxBytes run last hRun hLast hLength hLastGroup).symm
      have hLengths : run ++ [last] = groups maxBytes (payload (run ++ [last])) →
          (run ++ [last]).length = (groups maxBytes (payload (run ++ [last]))).length :=
        congrArg List.length
      exact ⟨⟨hLengths, fun hSame => hCanonical (hShort hSame)⟩,
        ⟨fun hGroups => hShort (hLengths hGroups), hCanonical⟩⟩

/-- Encoding and decoding are inverse on the numbers of 64 bits, wherever the encoding stands. The
encoding is the shortest, and the only one of its length; a longer one ends in a byte that is zero.
No other number has an encoding. -/
theorem encode_inverse_and_shortest :
    (∀ number : Int, 0 ≤ number → number < 2 ^ 64 →
      ∃ encoding, encode number = .ok encoding ∧ 1 ≤ encoding.length ∧ encoding.length ≤ 10 ∧
        ∀ before after : List UInt8,
          decodeAt (before ++ encoding ++ after) (before.length : Int) =
            .ok (.decoded number.toNat encoding.length)) ∧
    (∀ (bytes : List UInt8) (number length : Nat),
      decodeAt bytes 0 = .ok (.decoded number length) →
      ∃ encoding, encode number = .ok encoding ∧ encoding.length ≤ length ∧
        (bytes.take length = encoding ↔ length = encoding.length) ∧
        (bytes.take length = encoding ↔ length = 1 ∨ bytes[length - 1]? ≠ some 0)) ∧
    (∀ number : Int, number < 0 → encode number = .error .negativeNumber) ∧
    ∀ number : Int, 2 ^ 64 ≤ number → encode number = .error .numberTooLarge := by
  refine ⟨?_, ?_, ?_, ?_⟩
  · intro number hNonneg hNumber
    obtain ⟨amount, hAmount⟩ := Int.eq_ofNat_of_zero_le hNonneg
    subst hAmount
    have hSmall : amount < 2 ^ 64 := by omega
    have hSpells := spells_groups hSmall
    have hMost : (groups maxBytes amount).length ≤ maxBytes :=
      length_groups_le _ _ _ (by decide) (by simp only [maxBytes]; omega)
    refine ⟨_, encode_of_lt hSmall, hSpells.length_pos, hMost, ?_⟩
    intro before after
    rw [decodeAt, if_neg (by omega), Int.toNat_natCast, List.append_assoc, List.drop_left,
      hSpells.decode_append after, Int.toNat_natCast]
  · intro bytes number length hDecodeAt
    have hDecode : decode bytes = .decoded number length := by
      rw [decodeAt, if_neg (by decide)] at hDecodeAt
      exact Except.ok.inj hDecodeAt
    obtain ⟨encoding, rest, hBytes, hSpells, hLength⟩ :=
      (decode_eq_decoded_iff bytes number length).mp hDecode
    have hPos := hSpells.length_pos
    obtain ⟨hSame, hEnd⟩ := hSpells.eq_groups_iff
    subst hBytes hLength
    rw [List.take_left, List.getElem?_append_left (by omega)]
    exact ⟨_, encode_of_lt hSpells.number_lt, hSpells.length_groups_le, hSame, hEnd⟩
  · intro number hNegative
    rw [encode, if_pos hNegative]
  · intro number hLarge
    have hMax : (maxNumber : Int) < number := by
      rw [maxNumber_eq]
      omega
    rw [encode, if_neg (by omega), if_pos hMax]

/-- An encoding of zero in two bytes is read, but it is not the encoding of zero. -/
theorem encode_zero_of_padded :
    decodeAt [0x80, 0x00, 0x07] 0 = .ok (.decoded 0 2) ∧
      ∃ encoding, encode 0 = .ok encoding ∧ encoding.length ≤ 2 ∧
        ([0x80, 0x00] = encoding ↔ 2 = encoding.length) ∧
        ([0x80, 0x00] = encoding ↔ 2 = 1 ∨ some (0x00 : UInt8) ≠ some 0) :=
  ⟨rfl, encode_inverse_and_shortest.2.1 [0x80, 0x00, 0x07] 0 2 rfl⟩

end LogicSignature.Varint
