import SignatureExport.Proofs.Address.Spellings
import SignatureExport.Proofs.Export.LineIsolation

/-!
# Reading records

A line is a record if the text before its first space spells a number below `2 ^ 64`.  The
number is the address and the text behind the space is the signature.  A line without a
space and a line with another text before it are told apart (`ofLine_exact`).

Both ways to write an address are read back, with any number of leading zeros.
-/

namespace SignatureExport

namespace Record

variable {line : Text}

/-! ## Lines that are no records -/

theorem ofLine_eq_missingSeparator_iff :
    ofLine line = .error .missingSeparator ↔ ' ' ∉ line := by
  refine ⟨?_, ofLine_of_not_mem⟩
  intro missing spaced
  obtain ⟨front, signature, rfl, fresh⟩ := List.eq_append_cons_of_mem spaced
  rw [ofLine_append fresh] at missing
  cases read : Address.ofText? front with
  | none =>
      rw [read] at missing
      cases missing
  | some address =>
      rw [read] at missing
      cases missing

theorem ofLine_eq_notHexadecimal_iff :
    ofLine line = .error .notHexadecimal ↔
      ∃ front signature, line = front ++ ' ' :: signature ∧ ' ' ∉ front ∧
        Address.ofText? front = none := by
  constructor
  · intro refused
    by_cases spaced : ' ' ∈ line
    · obtain ⟨front, signature, rfl, fresh⟩ := List.eq_append_cons_of_mem spaced
      refine ⟨front, signature, rfl, fresh, ?_⟩
      rw [ofLine_append fresh] at refused
      cases read : Address.ofText? front with
      | none => rfl
      | some address =>
          rw [read] at refused
          cases refused
    · rw [ofLine_of_not_mem spaced] at refused
      cases refused
  · rintro ⟨front, signature, rfl, fresh, unread⟩
    rw [ofLine_append fresh, unread]
    rfl

/-- The wording of a fault tells which one it is. -/
theorem message_ofLine_iff {fault : LineFault} :
    (ofLine line).mapError LineFault.message = .error fault.message ↔
      ofLine line = .error fault := by
  have wordings : ∀ first second : LineFault, first.message = second.message → first = second := by
    rintro (_ | _) (_ | _) same
    · rfl
    · exact absurd same (by decide)
    · exact absurd same (by decide)
    · rfl
  cases ofLine line with
  | ok record => exact iff_of_false nofun nofun
  | error other =>
      constructor
      · intro same
        rw [wordings other fault (Except.error.inj same)]
      · intro same
        rw [Except.error.inj same]
        rfl

/-! ## Lines that are records -/

/-- A text is no address if it spells no number that fits. -/
theorem ofText?_eq_none_iff {text : Text} :
    Address.ofText? text = none ↔ ∀ number < 2 ^ 64, ¬ Address.Spells text number := by
  constructor
  · intro unread number fits spells
    have small : (UInt64.ofNat number).toNat = number := UInt64.toNat_ofNat_of_lt' fits
    rw [← small, ← Address.ofText?_eq_some_iff, unread] at spells
    cases spells
  · intro none
    cases read : Address.ofText? text with
    | none => rfl
    | some address => exact absurd (Address.ofText?_eq_some_iff.1 read) (none _ address.toNat_lt)

/-- A line is read as a record if and only if a number that fits is spelled before its first
space, and the two faults tell why it is not.  Addresses are read back as they are written,
with any number of leading zeros. -/
theorem ofLine_exact :
    (∀ line : Text,
      (∀ record, ofLine line = .ok record ↔
        ∃ front number, line = front ++ ' ' :: record.signature ∧ ' ' ∉ front ∧
          Address.Spells front number ∧ number < 2 ^ 64 ∧ record.address.toNat = number ∧
          record.line = line) ∧
      ((ofLine line).mapError LineFault.message = .error "missing address separator".toList ↔
        ' ' ∉ line) ∧
      ((ofLine line).mapError LineFault.message = .error "address is not hexadecimal".toList ↔
        ∃ front signature, line = front ++ ' ' :: signature ∧ ' ' ∉ front ∧
          ∀ number < 2 ^ 64, ¬ Address.Spells front number)) ∧
    ∀ (address : Address) (zeros : Nat) (signature : Text),
      ∀ spelling ∈ [address.lowerHex, address.upperHex],
        let line := Address.insertZeros zeros spelling ++ ' ' :: signature
        ofLine line = .ok ⟨line, address, signature⟩ := by
  refine ⟨fun line => ⟨fun record => ?_, ?_, ?_⟩, ?_⟩
  · rw [ofLine_eq_ok_iff]
    constructor
    · rintro ⟨isLine, front, equal, fresh, isAddress⟩
      exact ⟨front, _, equal, fresh, Address.ofText?_eq_some_iff.1 isAddress,
        record.address.toNat_lt, rfl, isLine⟩
    · rintro ⟨front, number, equal, fresh, spells, -, rfl, isLine⟩
      exact ⟨isLine, front, equal, fresh, Address.ofText?_eq_some_iff.2 spells⟩
  · exact message_ofLine_iff.trans ofLine_eq_missingSeparator_iff
  · refine (@message_ofLine_iff line .notHexadecimal).trans ?_
    rw [ofLine_eq_notHexadecimal_iff]
    simp only [ofText?_eq_none_iff]
  · intro address zeros signature spelling written line
    have read := Address.ofText?_insertZeros address zeros written
    have fresh := (Address.ofText?_eq_some_iff.1 read).space_not_mem
    refine (ofLine_append fresh signature).trans ?_
    rw [read]
    rfl

/-- The greatest address, with more digits than fit. -/
theorem ofLine_exact_greatest :
    ofLine "0x000FFFFFFFFFFFFFFFF f()".toList =
      .ok ⟨"0x000FFFFFFFFFFFFFFFF f()".toList, 0xFFFFFFFFFFFFFFFF, "f()".toList⟩ :=
  ofLine_exact.2 0xFFFFFFFFFFFFFFFF 3 "f()".toList _ (List.mem_cons_of_mem _ List.mem_cons_self)

end Record

end SignatureExport
