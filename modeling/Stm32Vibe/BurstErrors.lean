-- The CRC of a packet detects every burst of errors in 32 consecutive bits.
import Stm32Vibe.Lib.CrcBurst
import Stm32Vibe.UpdateProtocol

namespace stm32_vibe.burst_errors

open little_endian reflected_crc update_protocol

/-- The packet with the error pattern over it. -/
def corrupt (bytes errors : List UInt8) : List UInt8 := List.zipWith (· ^^^ ·) bytes errors

/-- Every accepted input leaves the remainder of four zero bytes. -/
theorem accepted_residue {input : List UInt8} (h : Accepts input) :
    remainder CRC32 0xFFFFFFFF input = remainder CRC32 0xFFFFFFFF [0, 0, 0, 0] := by
  have hcrc := h.crc
  rw [input_split h]
  exact remainder_residue hcrc

/-- What the encoder writes is accepted. -/
theorem encode_accepts {packet : UpdatePacket} {output_capacity : Nat} {bytes : List UInt8}
    (h : update_protocol_encode packet output_capacity = .ok bytes) : Accepts bytes := by
  obtain ⟨hfits, rfl⟩ := encode_inv h
  exact encoded_accepts hfits

/-- A packet with a burst of errors is never accepted. -/
theorem burst_detected {packet : UpdatePacket} {output_capacity : Nat} {bytes : List UInt8}
    (h : update_protocol_encode packet output_capacity = .ok bytes) {errors : List UInt8}
    (hlength : errors.length = bytes.length) (hnonzero : ∃ i, bit errors i = true) {start : Nat}
    (hburst : ∀ i, bit errors i = true → start ≤ i ∧ i < start + 32) (old : UpdatePacket)
    (payload : Memory) (payload_capacity : Nat) :
    (update_protocol_decode (corrupt bytes errors) old payload payload_capacity).1 ≠ .Ok := by
  intro hok
  have accepts := ((decode_ok_iff _ old payload payload_capacity).mp hok).1
  have hsum := remainder_xor CRC32 0xFFFFFFFF 0 hlength.symm
  have hzero : remainder CRC32 0 errors = 0 := by
    have hsame : remainder CRC32 0xFFFFFFFF bytes ^^^ remainder CRC32 0 errors =
        remainder CRC32 0xFFFFFFFF bytes ^^^ 0 := by
      rw [← hsum, UInt32.xor_zero, UInt32.xor_zero]
      exact (accepted_residue accepts).trans (accepted_residue (encode_accepts h)).symm
    exact (UInt32.xor_right_inj _).mp hsame
  have hfirst := Nat.find_spec hnonzero
  have hwindow : ∀ i, bit errors i = true → Nat.find hnonzero ≤ i ∧ i < Nat.find hnonzero + 32 := by
    intro i hi
    have hleast := Nat.find_min' hnonzero hi
    have hstart := (hburst _ hfirst).1
    have hend := (hburst i hi).2
    exact ⟨hleast, by omega⟩
  exact remainder_burst (by decide) hfirst hwindow hzero

/-- The request for the board data. -/
def discover : UpdatePacket where
  command := UPDATE_CMD_DISCOVER
  flags := 0
  payload_len := 0
  session_id := 0
  sequence := 0
  payload := []
  length_payload := List.length_nil

/-- Errors in the last bit of the header and in the first bit of the CRC. -/
def seamErrors : List UInt8 := List.replicate 15 0 ++ [0x80, 0x01, 0, 0, 0]

theorem seamErrors_burst {i : Nat} (h : bit seamErrors i = true) : 127 ≤ i ∧ i < 127 + 32 := by
  have hlt : i < 160 := by
    by_contra hge
    have hpast : bit seamErrors i = false := bit_past (Nat.not_lt.mp hge)
    rw [hpast] at h
    cases h
  have hall : ∀ i < 160, bit seamErrors i = true → 127 ≤ i ∧ i < 127 + 32 := by decide +kernel
  exact hall i hlt h

theorem burst_detected_seam :
    (update_protocol_decode (corrupt (encoded discover) seamErrors) discover (fun _ => 0)
      UPDATE_PROTOCOL_MAX_PAYLOAD).1 ≠ .Ok := by
  have hlength : seamErrors.length = (encoded discover).length := (length_encoded discover).symm
  have hset : bit seamErrors 127 = true := by decide
  exact burst_detected (encode_ok (by decide : discover.payload_len.toNat ≤ 128) (Nat.le_refl _))
    hlength ⟨127, hset⟩ (fun _ => seamErrors_burst) _ _ _

end stm32_vibe.burst_errors
