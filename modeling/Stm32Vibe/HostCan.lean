-- The CAN framing of the update tool, and that the tool and the firmware cut and
-- join packets alike. The two receivers clear different parts of their state on
-- an error, so they are related only while a packet is open.
import Stm32Vibe.Lib.Lockstep
import Stm32Vibe.CanTransport
import Stm32Vibe.UartUpdate

namespace stm32_vibe.host_can

open little_endian update_protocol update_can can_transport uart_update

/-! ## The framing of the tool -/

def FRAGMENT_START : UInt8 := 0x80
def FRAGMENT_END : UInt8 := 0x40
def FRAGMENT_INDEX_MASK : UInt8 := 0x3F
def MIN_PACKET_SIZE : Nat := 20
def MAX_PACKET_SIZE : Nat := 148

/-- `CanFrame` of the tool. -/
structure HostFrame where
  can_id : Int
  data : List UInt8
deriving DecidableEq, Repr

/-- `data.ljust(8, b"\x00")`. -/
def ljust (data : List UInt8) : List UInt8 := data ++ List.replicate (8 - data.length) 0

def fragment_header (packet : List UInt8) (offset index : Nat) : List UInt8 :=
  if offset = 0 then
    [FRAGMENT_START, (packet.length &&& 0xFF).toUInt8, (packet.length >>> 8).toUInt8]
  else [(index &&& FRAGMENT_INDEX_MASK.toNat).toUInt8]

def fragment_chunk (packet : List UInt8) (offset index : Nat) : List UInt8 :=
  (packet.drop offset).take (8 - (fragment_header packet offset index).length)

theorem fragment_chunk_positive {packet : List UInt8} {offset : Nat} (h : offset < packet.length)
    (index : Nat) : 0 < (fragment_chunk packet offset index).length := by
  have hheader : (fragment_header packet offset index).length ≤ 3 := by
    unfold fragment_header
    split <;> simp
  unfold fragment_chunk
  rw [List.length_take, List.length_drop]
  omega

/-- The loop of `fragment_packet`. -/
def fragment_loop (packet : List UInt8) (can_id : Int) (offset index : Nat) : List HostFrame :=
  if h : offset < packet.length then
    let header := fragment_header packet offset index
    let chunk := fragment_chunk packet offset index
    let next := offset + chunk.length
    let control := header.getD 0 0
    let control := if next = packet.length then control ||| FRAGMENT_END else control
    let data := [control] ++ header.drop 1 ++ chunk
    { can_id, data := ljust data } :: fragment_loop packet can_id next (index + 1)
  else []
termination_by packet.length - offset
decreasing_by
  have hchunk := fragment_chunk_positive h index
  omega

def fragment_packet (packet : List UInt8) (can_id : Int) : Except ToolError (List HostFrame) :=
  if packet.length < MIN_PACKET_SIZE ∨ packet.length > MAX_PACKET_SIZE then
    .error (.ValueError "update packet length is out of range")
  else .ok (fragment_loop packet can_id 0 0)

/-- `PacketReassembler`. -/
structure PacketReassembler where
  can_id : Int
  expected_len : Nat
  next_index : Nat
  packet : List UInt8
  active : Bool
deriving DecidableEq, Repr

def reset (reassembler : PacketReassembler) : PacketReassembler :=
  { reassembler with expected_len := 0, next_index := 0, packet := [], active := false }

/-- `PacketReassembler(can_id)`. -/
def init (can_id : Int) : PacketReassembler :=
  { can_id, expected_len := 0, next_index := 0, packet := [], active := false }

/-- The end of `feed`, once the bytes of the frame are in the packet. -/
def finish (control : UInt8) (reassembler : PacketReassembler) :
    Option (List UInt8) × PacketReassembler :=
  let padding := reassembler.packet.drop reassembler.expected_len
  if reassembler.packet.length > reassembler.expected_len ∧
      (control &&& FRAGMENT_END = 0 ∨ padding.any (· ≠ 0)) then
    (none, reset reassembler)
  else
    let reassembler :=
      { reassembler with packet := reassembler.packet.take reassembler.expected_len }
    if control &&& FRAGMENT_END ≠ 0 then
      if reassembler.packet.length ≠ reassembler.expected_len then (none, reset reassembler)
      else (some reassembler.packet, reset reassembler)
    else if reassembler.packet.length = reassembler.expected_len then (none, reset reassembler)
    else (none, reassembler)

def feed (reassembler : PacketReassembler) (frame : HostFrame) :
    Option (List UInt8) × PacketReassembler :=
  if frame.can_id ≠ reassembler.can_id then (none, reassembler)
  else
    match frame.data with
    | [] => (none, reassembler)
    | control :: rest =>
      let index := (control &&& FRAGMENT_INDEX_MASK).toNat
      if control &&& FRAGMENT_START ≠ 0 then
        if index ≠ 0 ∨ frame.data.length < 3 then (none, reset reassembler)
        else
          let expected_len := (rest.getD 0 0).toNat ||| ((rest.getD 1 0).toNat <<< 8)
          if expected_len < MIN_PACKET_SIZE ∨ expected_len > MAX_PACKET_SIZE then
            (none, reset reassembler)
          else
            finish control
              { reassembler with
                expected_len
                next_index := 1
                packet := frame.data.drop 3
                active := true }
      else if reassembler.active = false ∨ index ≠ reassembler.next_index then
        (none, reset reassembler)
      else
        finish control
          { reassembler with
            next_index := reassembler.next_index + 1
            packet := reassembler.packet ++ rest }

/-! ## Cutting a packet -/

/-- A frame of the firmware as the tool sees it. -/
def ofFrame (frame : CanFrame) : HostFrame where
  can_id := (frame.id.toNat : Int)
  data := frame.data.toList.take frame.dlc.toNat

section
variable {fragmenter : UpdateCanFragmenter} {index : Nat}

/-- Both senders build the same control byte and header. -/
theorem fragment_header_eq (hindex : fragmenter.fragment_index = index.toUInt8)
    (hfirst : fragmenter.offset = 0 → index = 0) (ends : Prop) [Decidable ends]
    (hends : ends ↔
      fragmenter.packet.length ≤ fragmenter.offset + capacityAt fragmenter.offset) :
    let header := fragment_header fragmenter.packet fragmenter.offset index
    let control := if ends then header.getD 0 0 ||| FRAGMENT_END else header.getD 0 0
    [control] ++ header.drop 1 = sentHeader fragmenter := by
  have hlow : (fragmenter.packet.length &&& 0xFF).toUInt8 = fragmenter.packet.length.toUInt8 := by
    apply UInt8.toNat_inj.mp
    show (fragmenter.packet.length &&& 2 ^ 8 - 1) % 2 ^ 8 = fragmenter.packet.length % 2 ^ 8
    rw [Nat.and_two_pow_sub_one_eq_mod, Nat.mod_mod]
  have hmask : (index &&& FRAGMENT_INDEX_MASK.toNat).toUInt8 =
      index.toUInt8 &&& UPDATE_CAN_FRAGMENT_INDEX_MASK := by
    apply UInt8.toNat_inj.mp
    rw [UInt8.toNat_and]
    show (index &&& 2 ^ 6 - 1) % 2 ^ 8 = index % 2 ^ 8 &&& 2 ^ 6 - 1
    rw [Nat.and_two_pow_sub_one_eq_mod, Nat.and_two_pow_sub_one_eq_mod]
    omega
  have hlast : ∀ control : UInt8, (if ends then control ||| FRAGMENT_END else control) =
      if fragmenter.packet.length ≤ fragmenter.offset + capacityAt fragmenter.offset then
        control ||| UPDATE_CAN_FRAGMENT_END
      else control := fun control => if_congr hends rfl rfl
  intro header control
  unfold control header sentHeader sentControl controlOf
  rw [hlast, hindex]
  unfold fragment_header
  by_cases h0 : fragmenter.offset = 0
  · simp only [h0, hfirst h0, if_true, hlow]
    rfl
  · simp only [h0, if_false, hmask]
    rfl

theorem fragment_chunk_eq :
    fragment_chunk fragmenter.packet fragmenter.offset index = sentChunk fragmenter := by
  unfold fragment_chunk fragment_header sentChunk capacityAt
  split <;> rfl

/-- The eight bytes of a frame, with zeros after the ones given. -/
theorem ljust_eq {bytes : List UInt8} (h : bytes.length ≤ 8) :
    ljust bytes = (frameData bytes).toList := by
  have hchunk := @frameData_chunk [] bytes (by simpa using h)
  rw [List.nil_append, List.length_nil, List.drop_zero] at hchunk
  rw [hchunk]
  rfl

theorem ofFrame_sent : (ofFrame (sentFrame fragmenter)).data =
    ljust (sentHeader fragmenter ++ sentChunk fragmenter) := by
  have hlength : (sentHeader fragmenter ++ sentChunk fragmenter).length ≤ 8 := by
    rw [List.length_append, length_chunk]
    unfold sentHeader capacityAt
    split
    · rw [List.length_cons, List.length_cons, List.length_singleton]
      omega
    · rw [List.length_singleton]
      omega
  rw [ljust_eq hlength]
  apply List.take_of_length_le
  rw [Vector.length_toList]
  exact (by decide : 8 ≤ CAN_MAX_DATA_LEN.toNat)

/-- From the same place on, the two senders give the same frames. -/
theorem fragment_loop_eq (hindex : fragmenter.fragment_index = index.toUInt8)
    (hfirst : fragmenter.offset = 0 → index = 0) :
    fragment_loop fragmenter.packet (fragmenter.can_id.toNat : Int) fragmenter.offset index =
      (fragments fragmenter).1.map ofFrame := by
  induction hleft : fragmenter.packet.length - fragmenter.offset using Nat.strong_induction_on
    generalizing fragmenter index with
  | h left ih =>
    by_cases hmore : fragmenter.offset < fragmenter.packet.length
    · have hchunk := @length_chunk fragmenter
      have hpositive := chunk_positive hmore
      have hends : fragmenter.offset + (sentChunk fragmenter).length = fragmenter.packet.length ↔
          fragmenter.packet.length ≤ fragmenter.offset + capacityAt fragmenter.offset := by
        rw [hchunk]
        omega
      have hnext := @ih (fragmenter.packet.length - (afterSend fragmenter).offset)
        (by simp only [afterSend]; omega) (afterSend fragmenter) (index + 1)
        (by
          simp only [afterSend, hindex]
          apply UInt8.toNat_inj.mp
          simp)
        (by simp only [afterSend]; omega) rfl
      rw [fragments_next hmore, fragment_loop, dif_pos hmore]
      dsimp only
      rw [fragment_chunk_eq, fragment_header_eq hindex hfirst _ hends, List.map_cons]
      congr 1
      rw [← ofFrame_sent]
      rfl
    · rw [fragments_done (by omega), fragment_loop, dif_neg hmore]
      rfl

end

/-! ## Joining a packet -/

/-- The end of `feed` returns a packet, or waits for more, or drops what it has,
in the same three cases as the firmware. -/
theorem finish_cases (frame : CanFrame) (reassembler : PacketReassembler) :
    (Finishes frame reassembler.expected_len reassembler.packet →
      finish (frame.data.getD 0 0) reassembler =
        (some (reassembler.packet.take reassembler.expected_len), reset reassembler)) ∧
    (¬ frame.Ends ∧ reassembler.packet.length < reassembler.expected_len →
      finish (frame.data.getD 0 0) reassembler = (none, reassembler)) ∧
    (¬ Finishes frame reassembler.expected_len reassembler.packet →
      ¬ (¬ frame.Ends ∧ reassembler.packet.length < reassembler.expected_len) →
        finish (frame.data.getD 0 0) reassembler = (none, reset reassembler)) := by
  obtain ⟨can_id, len, next_index, received, active⟩ := reassembler
  dsimp only
  have hpadding : (received.drop len).any (· ≠ 0) = true ↔ ¬ ∀ b ∈ received.drop len, b = 0 := by
    simp
  have hlength : (received.take len).length = min len received.length := List.length_take
  have hends : frame.data.getD 0 0 &&& FRAGMENT_END = 0 ↔ ¬ frame.Ends := not_not.symm
  unfold finish Finishes
  simp only [hpadding, hends, hlength, ne_eq, not_not]
  refine ⟨?_, ?_, ?_⟩
  · rintro ⟨ends, hfull, hzero⟩
    rw [if_neg (by tauto), if_pos (by tauto), if_neg (by omega)]
    rfl
  · rintro ⟨open_end, hshort⟩
    rw [if_neg (by omega), if_neg (by tauto), if_neg (by omega),
      List.take_of_length_le (Nat.le_of_lt hshort)]
  · intro not_finished not_short
    by_cases ends : frame.Ends
    · by_cases hlong : received.length > len
      · rw [if_pos ⟨hlong, Or.inr fun hzero =>
          not_finished ⟨ends, Nat.le_of_lt hlong, hzero⟩⟩]
      · have hne : received.length ≠ len := by
          rintro rfl
          exact not_finished ⟨ends, Nat.le_refl _, by simp⟩
        rw [if_neg (by tauto), if_pos (by tauto), if_pos (by omega)]
        rfl
    · by_cases hlong : received.length > len
      · rw [if_pos ⟨hlong, Or.inl ends⟩]
      · have hfull : received.length = len := by
          by_contra hne
          exact not_short ⟨ends, by omega⟩
        rw [if_neg (by tauto), if_neg (by tauto), if_pos (by omega)]
        rfl

section
variable {frame : CanFrame} {expected_can_id : UInt32} {reassembler : PacketReassembler}

/-- The bytes of a frame that is not ignored. -/
theorem ofFrame_data (h : Relevant expected_can_id frame) :
    (ofFrame frame).data = frame.data.getD 0 0 :: frame.chunk 1 := by
  obtain ⟨-, hpos, hle⟩ := h
  have hlength : (frame.data.toList.take frame.dlc.toNat).length = frame.dlc.toNat := by
    rw [List.length_take, Vector.length_toList]
    exact min_eq_left hle
  have hcons := @List.drop_eq_getElem_cons _ 0 (frame.data.toList.take frame.dlc.toNat) (by omega)
  rw [List.drop_zero] at hcons
  rw [List.getElem_take, Vector.getElem_toList] at hcons
  rw [getD_data _ (by decide)]
  exact hcons

/-- The length that the tool reads in a START frame is the one that it declares. -/
theorem declared_eq (header : 3 ≤ frame.dlc.toNat) :
    ((frame.chunk 1).getD 0 0).toNat ||| (((frame.chunk 1).getD 1 0).toNat <<< 8) =
      frame.declared := by
  have hbyte : ∀ k, (hk : k < 2) → (frame.chunk 1).getD k 0 = frame.data.getD (1 + k) 0 := by
    intro k hk
    rw [getD_data _ (by omega), List.getD_eq_getElem?_getD, CanFrame.chunk, List.getElem?_drop,
      List.getElem?_take_of_lt (by omega), Vector.getElem?_toList,
      Vector.getElem?_eq_getElem (by omega)]
    rfl
  have hlow := (frame.data.getD 1 0).toNat_lt
  unfold CanFrame.declared
  rw [hbyte 0 (by omega), hbyte 1 (by omega), packHalf_toNat, Nat.shiftLeft_eq, Nat.mul_comm,
    Nat.or_comm]
  exact (Nat.two_pow_add_eq_or_of_lt hlow _).symm

/-- What the tool does with a frame that is not ignored. -/
theorem feed_ofFrame (h : Relevant expected_can_id frame)
    (hid : reassembler.can_id = (expected_can_id.toNat : Int)) :
    feed reassembler (ofFrame frame) =
      if frame.Starts then
        if frame.index ≠ 0 ∨ frame.dlc < 3 then (none, reset reassembler)
        else if frame.declared < 20 ∨ frame.declared > 148 then (none, reset reassembler)
        else finish (frame.data.getD 0 0)
          { reassembler with
            expected_len := frame.declared
            next_index := 1
            packet := frame.chunk 3
            active := true }
      else if reassembler.active = false ∨ frame.index.toNat ≠ reassembler.next_index then
        (none, reset reassembler)
      else finish (frame.data.getD 0 0)
        { reassembler with
          next_index := reassembler.next_index + 1
          packet := reassembler.packet ++ frame.chunk 1 } := by
  have hsame : ¬ (ofFrame frame).can_id ≠ reassembler.can_id := by
    rw [hid, ← h.1]
    exact not_not.mpr rfl
  have hlength : (ofFrame frame).data.length = frame.dlc.toNat := by
    rw [ofFrame, List.length_take, Vector.length_toList]
    exact min_eq_left h.2.2
  have hthree : frame.dlc < 3 ↔ frame.dlc.toNat < 3 := UInt8.lt_iff_toNat_lt
  have hchunk : (ofFrame frame).data.drop 3 = frame.chunk 3 := rfl
  unfold feed
  rw [if_neg hsame]
  split
  · rename_i hnone
    rw [hnone, List.length_nil] at hlength
    have hpos := h.2.1
    omega
  · rename_i control rest hdata
    rw [ofFrame_data h] at hdata
    obtain ⟨rfl, rfl⟩ := List.cons.inj hdata
    have hindex : (frame.data.getD 0 0 &&& FRAGMENT_INDEX_MASK).toNat = 0 ↔ frame.index = 0 :=
      @UInt8.toNat_inj frame.index 0
    dsimp only
    rw [hlength, hchunk]
    by_cases starts : frame.Starts
    · have starts' : frame.data.getD 0 0 &&& FRAGMENT_START ≠ 0 := starts
      rw [if_pos starts, if_pos starts']
      by_cases hheader : frame.index ≠ 0 ∨ frame.dlc < 3
      · have hheader' :
            (frame.data.getD 0 0 &&& FRAGMENT_INDEX_MASK).toNat ≠ 0 ∨ frame.dlc.toNat < 3 :=
          hheader.imp hindex.not.mpr hthree.mp
        rw [if_pos hheader, if_pos hheader']
      · have hheader' :
            ¬ ((frame.data.getD 0 0 &&& FRAGMENT_INDEX_MASK).toNat ≠ 0 ∨ frame.dlc.toNat < 3) :=
          fun hbad => hheader (hbad.imp hindex.not.mp hthree.mpr)
        rw [if_neg hheader, if_neg hheader', declared_eq (by omega)]
        rfl
    · have starts' : ¬ (frame.data.getD 0 0 &&& FRAGMENT_START ≠ 0) := starts
      rw [if_neg starts, if_neg starts']
      rfl

theorem feed_host_opening {len : Nat} (h : Relevant expected_can_id frame)
    (hid : reassembler.can_id = (expected_can_id.toNat : Int)) (opening : Opening frame len) :
    feed reassembler (ofFrame frame) = finish (frame.data.getD 0 0)
      { reassembler with
        expected_len := len, next_index := 1, packet := frame.payload, active := true } := by
  have hthree : frame.dlc < 3 ↔ frame.dlc.toNat < 3 := UInt8.lt_iff_toNat_lt
  obtain ⟨starts, index, header, rfl, least, fits⟩ := opening
  have hheader : ¬ (frame.index ≠ 0 ∨ frame.dlc < 3) := by
    rw [hthree]
    rintro (hne | hshort)
    · exact hne index
    · omega
  have hpayload : frame.payload = frame.chunk 3 := by
    unfold CanFrame.payload
    rw [if_pos starts]
  rw [feed_ofFrame h hid, if_pos starts, if_neg hheader, if_neg (by omega), hpayload]

theorem feed_host_next (h : Relevant expected_can_id frame)
    (hid : reassembler.can_id = (expected_can_id.toNat : Int)) (not_start : ¬ frame.Starts)
    (active : reassembler.active = true)
    (index : frame.index.toNat = reassembler.next_index) :
    feed reassembler (ofFrame frame) = finish (frame.data.getD 0 0)
      { reassembler with
        next_index := reassembler.next_index + 1
        packet := reassembler.packet ++ frame.payload } := by
  have hstray : ¬ (reassembler.active = false ∨ frame.index.toNat ≠ reassembler.next_index) := by
    rw [active]
    rintro (hfalse | hne)
    · cases hfalse
    · exact hne index
  have hpayload : frame.payload = frame.chunk 1 := by
    unfold CanFrame.payload
    rw [if_neg not_start]
  rw [feed_ofFrame h hid, if_neg not_start, if_neg hstray, hpayload]

theorem feed_host_dropped (h : Relevant expected_can_id frame)
    (hid : reassembler.can_id = (expected_can_id.toNat : Int))
    (not_opening : ∀ len, ¬ Opening frame len)
    (not_next : ¬ (¬ frame.Starts ∧ reassembler.active = true ∧
      frame.index.toNat = reassembler.next_index)) :
    feed reassembler (ofFrame frame) = (none, reset reassembler) := by
  have hthree : frame.dlc < 3 ↔ frame.dlc.toNat < 3 := UInt8.lt_iff_toNat_lt
  rw [feed_ofFrame h hid]
  split_ifs with starts header length stray
  · rfl
  · rfl
  · rw [hthree, not_or, not_not] at header
    exact absurd ⟨starts, header.1, by omega, rfl, by omega, by omega⟩
      (not_opening frame.declared)
  · rfl
  · rw [not_or, not_not, Bool.not_eq_false] at stray
    exact absurd ⟨starts, stray⟩ not_next

theorem feed_host_ignored (h : ¬ Relevant expected_can_id frame) (hdlc : frame.dlc.toNat ≤ 8)
    (hid : reassembler.can_id = (expected_can_id.toNat : Int)) :
    feed reassembler (ofFrame frame) = (none, reassembler) := by
  unfold feed
  by_cases hother : (ofFrame frame).can_id ≠ reassembler.can_id
  · rw [if_pos hother]
  · have hsame : frame.id = expected_can_id := by
      rw [hid, not_not] at hother
      exact UInt32.toNat_inj.mp (Int.ofNat.inj hother)
    have hempty : (ofFrame frame).data = [] := by
      have hzero : frame.dlc.toNat = 0 := by
        by_contra hne
        exact h ⟨hsame, by omega, hdlc⟩
      rw [ofFrame, hzero, List.take_zero]
    rw [if_neg hother]
    split
    · rfl
    · rename_i hdata
      rw [hempty] at hdata
      cases hdata

/-- The two receivers are together: while a packet is open, they wait for the same
fragment of it, and have the same bytes. -/
structure Together (expected_can_id : UInt32) (reassembly : UpdateCanReassembly)
    (reassembler : PacketReassembler) : Prop where
  can_id : reassembler.can_id = (expected_can_id.toNat : Int)
  active : reassembler.active = reassembly.active
  next_index : reassembly.active = true →
    reassembler.next_index = reassembly.next_index.toNat ∧ reassembly.next_index.toNat ≤ 64
  received : reassembly.active = true →
    Received reassembly reassembler.expected_len reassembler.packet

theorem together_init (expected_can_id : UInt32) :
    Together expected_can_id update_can_reassembly_init (init (expected_can_id.toNat : Int)) :=
  ⟨rfl, rfl, nofun, nofun⟩

/-- The frame is the same for both receivers, and has at most eight bytes. -/
def SameFrame (frame : CanFrame) (host_frame : HostFrame) : Prop :=
  frame.dlc.toNat ≤ 8 ∧ host_frame = ofFrame frame

/-- The firmware completes a packet exactly when the tool returns it. -/
def SamePacket (out : FeedOut) (host_out : Option (List UInt8)) : Prop :=
  ∀ packet, out.result = .Complete packet ↔ host_out = some packet

/-- Both have dropped what they had. -/
theorem Together.dropped {out : FeedOut × UpdateCanReassembly}
    (hid : reassembler.can_id = (expected_can_id.toNat : Int))
    (result : out.1.result = .Error) (active : out.2.active = false) :
    SamePacket out.1 (none : Option (List UInt8)) ∧
      Together expected_can_id out.2 (reset reassembler) := by
  refine ⟨fun packet => ?_, hid, active.symm, ?_, ?_⟩
  · rw [result]
    exact iff_of_false nofun nofun
  · rw [active]
    nofun
  · rw [active]
    nofun

/-- Both have put the bytes of the frame to the packet, and end in the same way. -/
theorem Together.taken {before : UpdateCanReassembly} {out : FeedOut × UpdateCanReassembly}
    (htaken : Taken frame reassembler.expected_len reassembler.packet before out)
    (hid : reassembler.can_id = (expected_can_id.toNat : Int))
    (active : reassembler.active = true) (before_active : before.active = true)
    (next_index : reassembler.next_index = before.next_index.toNat)
    (bound : before.next_index.toNat ≤ 64) :
    let host_out := finish (frame.data.getD 0 0) reassembler
    SamePacket out.1 host_out.1 ∧ Together expected_can_id out.2 host_out.2 := by
  obtain ⟨hcomplete, hmore, hdropped⟩ := finish_cases frame reassembler
  rcases htaken with ⟨finishes, result, closed⟩ | ⟨open_end, short, result, holds, hactive, hnext⟩ |
    ⟨not_finished, not_short, result, closed⟩
  · rw [hcomplete finishes]
    refine ⟨fun packet => ?_, hid, closed.symm, ?_, ?_⟩
    · rw [result]
      constructor
      · exact fun h => congrArg some (UpdateCanReassemblyResult.Complete.inj h)
      · exact fun h => congrArg UpdateCanReassemblyResult.Complete (Option.some.inj h)
    · rw [closed]
      nofun
    · rw [closed]
      nofun
  · rw [hmore ⟨open_end, short⟩]
    refine ⟨fun packet => ?_, hid, ?_, fun _ => ?_, fun _ => holds⟩
    · rw [result]
      exact iff_of_false nofun nofun
    · rw [hactive, before_active, active]
    · rw [hnext]
      exact ⟨next_index, bound⟩
  · rw [hdropped not_finished not_short]
    exact Together.dropped hid result closed

/-- One frame keeps the receivers together. -/
theorem together_feed {reassembly : UpdateCanReassembly} {host_frame : HostFrame}
    (h : Together expected_can_id reassembly reassembler) (hframe : SameFrame frame host_frame) :
    let out := update_can_reassembly_feed reassembly frame expected_can_id
    let host_out := feed reassembler host_frame
    SamePacket out.1 host_out.1 ∧ Together expected_can_id out.2 host_out.2 := by
  obtain ⟨hdlc, rfl⟩ := hframe
  obtain ⟨hid, hactive, hnext, hreceived⟩ := h
  intro out host_out
  by_cases relevant : Relevant expected_can_id frame
  · by_cases hopening : ∃ len, Opening frame len
    · obtain ⟨len, opening⟩ := hopening
      obtain ⟨-, htaken⟩ := feed_opening reassembly relevant opening
      have hhost : host_out = _ := feed_host_opening relevant hid opening
      rw [hhost]
      exact Together.taken htaken hid rfl rfl rfl (by show 1 ≤ 64; omega)
    · have not_opening : ∀ len, ¬ Opening frame len := fun len opening => hopening ⟨len, opening⟩
      by_cases hgoes_on : ¬ frame.Starts ∧ reassembly.active = true ∧
          frame.index = reassembly.next_index
      · obtain ⟨not_start, open_packet, index⟩ := hgoes_on
        obtain ⟨hcount, hbound⟩ := hnext open_packet
        have hsmall : frame.index.toNat ≤ 63 := by
          unfold CanFrame.index
          rw [UInt8.toNat_and]
          exact Nat.and_le_right
        have hstep : (reassembly.next_index + 1).toNat = reassembly.next_index.toNat + 1 := by
          rw [UInt8.toNat_add, ← index]
          exact Nat.mod_eq_of_lt (by show frame.index.toNat + 1 < 256; omega)
        obtain ⟨-, htaken⟩ :=
          feed_next relevant not_start open_packet index (hreceived open_packet)
        have hhost : host_out = _ := feed_host_next relevant hid not_start
          (hactive.trans open_packet) (by rw [hcount, index])
        rw [hhost]
        refine Together.taken htaken hid (hactive.trans open_packet) open_packet ?_ ?_
        · rw [hstep, ← hcount]
        · rw [hstep, ← index]
          omega
      · obtain ⟨hresult, -, hclosed⟩ := feed_dropped relevant not_opening hgoes_on
        have hhost : host_out = _ := feed_host_dropped relevant hid not_opening (by
          rintro ⟨not_start, open_packet, index⟩
          rw [hactive] at open_packet
          refine hgoes_on ⟨not_start, open_packet, ?_⟩
          rw [← UInt8.toNat_inj, index, (hnext open_packet).1])
        rw [hhost]
        exact Together.dropped hid hresult hclosed
  · obtain ⟨hresult, -, hsame⟩ := feed_irrelevant reassembly relevant
    have hignored : host_out = (none, reassembler) := feed_host_ignored relevant hdlc hid
    rw [hignored]
    refine ⟨fun packet => iff_of_false (hresult packet) nofun, ?_⟩
    rw [show out.2 = reassembly from hsame]
    exact ⟨hid, hactive, hnext, hreceived⟩

end

theorem together_simulates (expected_can_id : UInt32) :
    lockstep.Simulates
      (fun reassembly frame => update_can_reassembly_feed reassembly frame expected_can_id) feed
      SameFrame (Together expected_can_id) SamePacket where
  output_step h hframe := (together_feed h hframe).1
  state_step h hframe := (together_feed h hframe).2

/-! ## The framings agree -/

/-- The frames that the firmware sends for a packet: none when it refuses to start. -/
def firmwareFrames (can_id : UInt32) (packet : List UInt8) : List CanFrame :=
  match update_can_fragmenter_init can_id packet with
  | none => []
  | some fragmenter => (fragments fragmenter).1

/-- The frames of a packet are one group, with its bytes and the id of the sender. -/
theorem firmwareFrames_group {can_id : UInt32} {packet : List UInt8}
    (hleast : 20 ≤ packet.length) (hfits : packet.length ≤ 148) (hid : can_id ≤ 0x7FF) :
    ∃ more last, firmwareFrames can_id packet = more ++ [last] ∧
      PacketGroup packet.length more last ∧
      (payloads (more ++ [last])).take packet.length = packet ∧
      (packet.length + 1) / 7 = more.length ∧
      ∀ frame ∈ more ++ [last], Relevant can_id frame := by
  have hstart : Sending { packet, offset := 0, can_id, fragment_index := 0 } packet can_id [] :=
    ⟨rfl, rfl, rfl, by show 0 < packet.length; omega, rfl, Or.inl ⟨rfl, rfl⟩⟩
  obtain ⟨more, last, hall, hgroup, hbytes, hcount, hrelevant, -⟩ := hstart.rest hleast hfits
  rw [hall] at hrelevant
  refine ⟨more, last, ?_, hgroup, hbytes, hcount, hrelevant⟩
  unfold firmwareFrames
  rw [init_ok hleast hfits hid]
  exact hall

/-- With a standard id, the tool sends the frames of the firmware. -/
theorem fragment_packet_eq {can_id : UInt32} {packet : List UInt8} (hleast : 20 ≤ packet.length)
    (hfits : packet.length ≤ 148) (hid : can_id ≤ 0x7FF) :
    fragment_packet packet (can_id.toNat : Int) =
      .ok ((firmwareFrames can_id packet).map ofFrame) := by
  have hhost : ¬ (packet.length < MIN_PACKET_SIZE ∨ packet.length > MAX_PACKET_SIZE) := by
    unfold MIN_PACKET_SIZE MAX_PACKET_SIZE
    omega
  unfold fragment_packet firmwareFrames
  rw [if_neg hhost, init_ok hleast hfits hid]
  exact congrArg Except.ok
    (@fragment_loop_eq { packet, offset := 0, can_id, fragment_index := 0 } 0 rfl fun _ => rfl)

/-- An id that does not fit the standard frame: the firmware sends nothing, the tool
leaves the check to its adapter. -/
theorem extended_id_differs :
    fragment_packet (List.replicate 20 0) 0x800 ≠
      .ok ((firmwareFrames 0x800 (List.replicate 20 0)).map ofFrame) := by
  have hnone : firmwareFrames 0x800 (List.replicate 20 0) = [] := by
    unfold firmwareFrames
    rw [show update_can_fragmenter_init 0x800 (List.replicate 20 0) = none by decide]
  rw [hnone, fragment_packet, if_neg (by decide), fragment_loop, dif_pos (by decide)]
  nofun

/-- The framings agree: for every packet and standard id the same frames, and on
every sequence of frames of at most eight bytes the same packets at the same
frames. -/
theorem framing_agrees :
    (∀ (packet : List UInt8) (can_id : UInt32), 20 ≤ packet.length → packet.length ≤ 148 →
      can_id ≤ 0x7FF →
        fragment_packet packet (can_id.toNat : Int) =
          .ok ((firmwareFrames can_id packet).map ofFrame)) ∧
    ∀ (expected_can_id : UInt32) (frames : List CanFrame),
      (∀ frame ∈ frames, frame.dlc.toNat ≤ 8) →
        List.Forall₂ SamePacket
          (lockstep.outputs
            (fun reassembly frame => update_can_reassembly_feed reassembly frame expected_can_id)
            update_can_reassembly_init frames)
          (lockstep.outputs feed (init (expected_can_id.toNat : Int)) (frames.map ofFrame)) := by
  constructor
  · intro packet can_id hleast hfits hid
    exact fragment_packet_eq hleast hfits hid
  · intro expected_can_id frames hdlc
    have hsame : List.Forall₂ SameFrame frames (frames.map ofFrame) := by
      rw [List.forall₂_map_right_iff, List.forall₂_same]
      exact fun frame hmem => ⟨hdlc frame hmem, rfl⟩
    exact ((together_simulates expected_can_id).run hsame (together_init expected_can_id)).1

/-- A packet of 20 zeros to the node 1: its frames, and both receivers on them. -/
theorem framing_agrees_zeros :
    fragment_packet (List.replicate 20 0) 0x601 =
        .ok ((firmwareFrames 0x601 (List.replicate 20 0)).map ofFrame) ∧
      List.Forall₂ SamePacket
        (lockstep.outputs
          (fun reassembly frame => update_can_reassembly_feed reassembly frame 0x601)
          update_can_reassembly_init (firmwareFrames 0x601 (List.replicate 20 0)))
        (lockstep.outputs feed (init 0x601)
          ((firmwareFrames 0x601 (List.replicate 20 0)).map ofFrame)) := by
  refine ⟨framing_agrees.1 (List.replicate 20 0) 0x601 (by decide) (by decide) (by decide),
    framing_agrees.2 0x601 (firmwareFrames 0x601 (List.replicate 20 0)) ?_⟩
  obtain ⟨more, last, hframes, -, -, -, hrelevant⟩ :=
    @firmwareFrames_group 0x601 (List.replicate 20 0) (by decide) (by decide) (by decide)
  rw [hframes]
  exact fun frame hmem => (hrelevant frame hmem).2.2

end stm32_vibe.host_can
