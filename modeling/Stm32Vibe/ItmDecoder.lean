-- The ITM stream of the debug port. Every packet says how long it is, so the
-- decoder never loses its place, and what comes out is what was sent on port 0.
import Mathlib.Data.List.GetD
import Stm32Vibe.Lib.StreamScanner

namespace stm32_vibe.itm_decoder

open stream_scanner

/-! ## The decoder -/

/-- `{1: 1, 2: 2, 3: 4}[size_code]`. -/
def payloadSize (size_code : UInt8) : Nat :=
  if size_code = 1 then 1 else if size_code = 2 then 2 else 4

/-- One turn of the loop of `feed` on a buffer that is not empty: it stops, or it
deletes some bytes and may append to the output. -/
def itmTurn (buffer : List UInt8) : Option (List UInt8 × Nat) :=
  let header := buffer.getD 0 0
  if header = 0x00 then
    match buffer.findIdx? (· ≠ 0x00) with
    | none => none
    | some sync_end =>
      if buffer.getD sync_end 0 = 0x80 then some ([], sync_end + 1) else some ([], 1)
  else
    let size_code := header &&& 0x03
    if size_code ≠ 0 then
      let payload_size := payloadSize size_code
      if buffer.length < payload_size + 1 then none
      else
        let payload := (buffer.take (payload_size + 1)).drop 1
        if header &&& 0x04 = 0 ∧ header >>> 3 = 0 then some (payload, payload_size + 1)
        else some ([], payload_size + 1)
    else if header = 0x70 then some ([], 1)
    else
      -- the packet ends at the first byte after the header with bit 7 clear
      match (buffer.drop 1).findIdx? (· &&& 0x80 = 0) with
      | none => none
      | some last => some ([], last + 2)

theorem itmTurn_bounded : Bounded itmTurn := by
  intro buffer output size hne h
  have hpos := List.length_pos_of_ne_nil hne
  unfold itmTurn at h
  dsimp only at h
  split at h
  · split at h
    · cases h
    · rename_i sync_end hfind
      have hlt := (List.findIdx?_eq_some_iff_getElem.mp hfind).1
      split at h
      · cases h
        omega
      · cases h
        omega
  · split at h
    · split at h
      · cases h
      · split at h
        · cases h
          omega
        · cases h
          omega
    · split at h
      · cases h
        omega
      · split at h
        · cases h
        · rename_i last hfind
          have hlt := (List.findIdx?_eq_some_iff_getElem.mp hfind).1
          rw [List.length_drop] at hlt
          cases h
          omega

structure ItmDecoder where
  buffer : List UInt8

def ItmDecoder.init : ItmDecoder where
  buffer := []

def ItmDecoder.feed (decoder : ItmDecoder) (data : List UInt8) : List UInt8 × ItmDecoder :=
  let (output, buffer) := whileLoop itmTurn itmTurn_bounded (decoder.buffer ++ data)
  (output, { buffer })

/-- The output of a row of chunks, and the decoder after them. -/
def ItmDecoder.feedAll : ItmDecoder → List (List UInt8) → List UInt8 × ItmDecoder :=
  feedEach ItmDecoder.feed

/-- What a turn does, it does with any bytes after the buffer. -/
theorem itmTurn_stable : Stable itmTurn := by
  intro buffer output size more hne h
  have hpos := List.length_pos_of_ne_nil hne
  have hlonger : (buffer ++ more).length = buffer.length + more.length := List.length_append
  unfold itmTurn at h ⊢
  rw [List.getD_append _ _ _ _ hpos]
  dsimp only at h ⊢
  split at h
  · rename_i hzero
    rw [if_pos hzero, List.findIdx?_append]
    split at h
    · cases h
    · rename_i sync_end hfind
      have hlt := (List.findIdx?_eq_some_iff_getElem.mp hfind).1
      rw [hfind, Option.some_or]
      dsimp only
      rw [List.getD_append _ _ _ _ hlt]
      exact h
  · rename_i hzero
    rw [if_neg hzero]
    split at h
    · rename_i hsize
      rw [if_pos hsize]
      split at h
      · cases h
      · rename_i hshort
        rw [if_neg (by omega), List.take_append_of_le_length (by omega)]
        exact h
    · rename_i hsize
      rw [if_neg hsize]
      split at h
      · rename_i hoverflow
        rw [if_pos hoverflow]
        exact h
      · rename_i hoverflow
        rw [if_neg hoverflow, List.drop_append_of_le_length (by omega), List.findIdx?_append]
        split at h
        · cases h
        · rename_i last hfind
          rw [hfind, Option.some_or]
          exact h

/-! ## The packets -/

/-- The payload sizes of a source packet. -/
inductive Size where
  | one
  | two
  | four
deriving DecidableEq, Repr

def Size.code : Size → Nat
  | .one => 1
  | .two => 2
  | .four => 3

def Size.bytes : Size → Nat
  | .one => 1
  | .two => 2
  | .four => 4

/-- The header of a source packet: the source above one bit for hardware and the
two bits of the size. -/
def sourceHeader (source : Fin 32) (hardware : Bool) (size : Size) : UInt8 :=
  (source.val * 8 + (if hardware then 4 else 0) + size.code).toUInt8

/-- The packets of the stream. -/
inductive Packet where
  | software (port : Fin 32) (size : Size) (payload : List UInt8)
      (sized : payload.length = size.bytes)
  | hardware (source : Fin 32) (size : Size) (payload : List UInt8)
      (sized : payload.length = size.bytes)
  | synchronisation (zeros : Nat) (enough : 5 ≤ zeros)
  | overflow
  | protocol (header : UInt8) (continued : List UInt8) (last : UInt8)
      (kind : header &&& 0x03 = 0 ∧ header &&& 0x80 ≠ 0)
      (continues : ∀ byte ∈ continued, byte &&& 0x80 ≠ 0) (ends : last &&& 0x80 = 0)

def Packet.bytes : Packet → List UInt8
  | .software port size payload _ => sourceHeader port false size :: payload
  | .hardware source size payload _ => sourceHeader source true size :: payload
  | .synchronisation zeros _ => List.replicate zeros 0x00 ++ [0x80]
  | .overflow => [0x70]
  | .protocol header continued last _ _ _ => header :: (continued ++ [last])

/-- What the packet says on port 0. -/
def Packet.portZero : Packet → List UInt8
  | .software port _ payload _ => if port = 0 then payload else []
  | _ => []

theorem Packet.bytes_ne_nil (packet : Packet) : packet.bytes ≠ [] := by
  cases packet <;> simp [Packet.bytes]

theorem sourceHeader_bits (source : Fin 32) (hardware : Bool) (size : Size) :
    sourceHeader source hardware size ≠ 0 ∧ sourceHeader source hardware size &&& 0x03 ≠ 0 ∧
      payloadSize (sourceHeader source hardware size &&& 0x03) = size.bytes ∧
      (sourceHeader source hardware size &&& 0x04 = 0 ∧
        sourceHeader source hardware size >>> 3 = 0 ↔ hardware = false ∧ source = 0) := by
  revert source
  cases hardware <;> cases size <;> decide

/-- A turn on a source packet. -/
theorem itmTurn_source (source : Fin 32) (hardware : Bool) {size : Size} {payload : List UInt8}
    (sized : payload.length = size.bytes) (more : List UInt8) :
    itmTurn (sourceHeader source hardware size :: payload ++ more) =
      some (if hardware = false ∧ source = 0 then payload else [], payload.length + 1) := by
  obtain ⟨hzero, hcode, hsize, hsource⟩ := sourceHeader_bits source hardware size
  have hfirst : (sourceHeader source hardware size :: payload ++ more).getD 0 0 =
      sourceHeader source hardware size := rfl
  have hlong : ¬ (sourceHeader source hardware size :: payload ++ more).length <
      payload.length + 1 := by
    rw [List.length_append, List.length_cons]
    omega
  have htake : ((sourceHeader source hardware size :: payload ++ more).take
      (payload.length + 1)).drop 1 = payload := by simp
  unfold itmTurn
  rw [hfirst]
  dsimp only
  rw [if_neg hzero, if_pos hcode, hsize, ← sized, if_neg hlong, htake]
  simp only [hsource]
  split <;> rfl

/-- The first byte after a row of others that meets a condition. -/
theorem findIdx?_first {p : UInt8 → Bool} {others : List UInt8} {byte : UInt8}
    (hothers : ∀ other ∈ others, p other = false) (hbyte : p byte = true) (more : List UInt8) :
    (others ++ byte :: more).findIdx? p = some others.length := by
  rw [List.findIdx?_append, List.findIdx?_eq_none_iff.mpr hothers, List.findIdx?_cons,
    if_pos hbyte]
  simp

theorem itmTurn_synchronisation {zeros : Nat} (enough : 5 ≤ zeros) (more : List UInt8) :
    itmTurn (List.replicate zeros 0x00 ++ 0x80 :: more) = some ([], zeros + 1) := by
  have hfirst : (List.replicate zeros 0x00 ++ 0x80 :: more).getD 0 0 = 0x00 := by
    rw [List.getD_append _ _ _ _ (by rw [List.length_replicate]; omega)]
    simp
  have hfind : (List.replicate zeros 0x00 ++ 0x80 :: more).findIdx? (· ≠ 0x00) = some zeros := by
    have hothers : ∀ other ∈ List.replicate zeros (0x00 : UInt8),
        decide (other ≠ 0x00) = false := by
      intro other hother
      rw [List.eq_of_mem_replicate hother]
      rfl
    rw [findIdx?_first hothers (by decide), List.length_replicate]
  have hmark : (List.replicate zeros 0x00 ++ 0x80 :: more).getD zeros 0 = 0x80 := by
    rw [List.getD_append_right _ _ _ _ (by rw [List.length_replicate]), List.length_replicate,
      Nat.sub_self]
    rfl
  unfold itmTurn
  rw [hfirst]
  dsimp only
  rw [if_pos rfl, hfind]
  dsimp only
  rw [if_pos hmark]

theorem itmTurn_protocol {header last : UInt8} {continued : List UInt8}
    (kind : header &&& 0x03 = 0 ∧ header &&& 0x80 ≠ 0)
    (continues : ∀ byte ∈ continued, byte &&& 0x80 ≠ 0) (ends : last &&& 0x80 = 0)
    (more : List UInt8) :
    itmTurn (header :: (continued ++ last :: more)) = some ([], continued.length + 2) := by
  have hzero : header ≠ 0x00 := by
    rintro rfl
    exact kind.2 rfl
  have hoverflow : header ≠ 0x70 := by
    rintro rfl
    exact kind.2 rfl
  have hfind : (continued ++ last :: more).findIdx? (· &&& 0x80 = 0) = some continued.length := by
    apply findIdx?_first
    · intro byte hbyte
      simpa using continues byte hbyte
    · simpa using ends
  unfold itmTurn
  rw [List.getD_cons_zero]
  dsimp only
  rw [if_neg hzero, if_neg (by simpa using kind.1), if_neg hoverflow, List.drop_succ_cons,
    List.drop_zero, hfind]

theorem itmTurn_packet (packet : Packet) (more : List UInt8) :
    itmTurn (packet.bytes ++ more) = some (packet.portZero, packet.bytes.length) := by
  cases packet with
  | software port size payload sized =>
    have hturn := itmTurn_source port false sized more
    simpa [Packet.bytes, Packet.portZero] using hturn
  | hardware source size payload sized =>
    have hturn := itmTurn_source source true sized more
    simpa [Packet.bytes, Packet.portZero] using hturn
  | synchronisation zeros enough =>
    have hturn := itmTurn_synchronisation enough more
    simpa [Packet.bytes, Packet.portZero] using hturn
  | overflow =>
    have hbits : (0x70 : UInt8) &&& 0x03 = 0 := by decide
    simp [itmTurn, Packet.bytes, Packet.portZero, hbits]
  | protocol header continued last kind continues ends =>
    have hturn := itmTurn_protocol kind continues ends more
    simpa [Packet.bytes, Packet.portZero] using hturn

/-- However the stream of packets is cut, port 0 comes out and nothing else. -/
theorem feedAll_packets (packets : List Packet) (chunks : List (List UInt8))
    (hchunks : chunks.flatten = packets.flatMap Packet.bytes) :
    ItmDecoder.init.feedAll chunks = (packets.flatMap Packet.portZero, ItmDecoder.init) := by
  have hread : ∀ rest data, ItmDecoder.feed ⟨rest⟩ data =
      ((whileLoop itmTurn itmTurn_bounded (rest ++ data)).1,
        ⟨(whileLoop itmTurn itmTurn_bounded (rest ++ data)).2⟩) := fun _ _ => rfl
  exact feedEach_pieces itmTurn_bounded itmTurn_stable hread Packet.bytes_ne_nil
    itmTurn_packet packets hchunks

/-- A payload that looks like headers, a synchronisation that is cut in its zeros,
and a packet with a continuation. -/
theorem feedAll_packets_cut :
    ItmDecoder.init.feedAll [[0x02, 0x70], [0x00, 0x00, 0x00], [0x00, 0x00, 0x00, 0x80],
        [0xC0, 0x80], [0x01, 0x0D, 0xA5, 0x70, 0x01], [0x5A]] =
      ([0x70, 0x00, 0x5A], ItmDecoder.init) :=
  feedAll_packets
    [.software 0 .two [0x70, 0x00] rfl, .synchronisation 5 (by decide),
      .protocol 0xC0 [0x80] 0x01 (by decide) (List.forall_mem_singleton.mpr (by decide))
        (by decide),
      .hardware 1 .one [0xA5] rfl, .overflow, .software 0 .one [0x5A] rfl]
    _ rfl

end stm32_vibe.itm_decoder
