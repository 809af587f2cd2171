-- The CAN transport: a packet goes in frames of eight bytes, and the receiver
-- joins them again. The reassembly is compared with the group of frames that
-- is open, so that what completes is read off the frames alone.
import Stm32Vibe.UpdateProtocol

namespace stm32_vibe.update_can

open little_endian update_protocol

/-! ## Frames -/

def CAN_MAX_DATA_LEN : UInt8 := 8

/-- `can_frame_t`. -/
structure CanFrame where
  id : UInt32
  dlc : UInt8
  data : Vector UInt8 8
deriving DecidableEq, Repr

def UPDATE_CAN_REQUEST_BASE_ID : UInt32 := 0x600
def UPDATE_CAN_RESPONSE_BASE_ID : UInt32 := 0x680

def UPDATE_CAN_FRAGMENT_START : UInt8 := 0x80
def UPDATE_CAN_FRAGMENT_END : UInt8 := 0x40
def UPDATE_CAN_FRAGMENT_INDEX_MASK : UInt8 := 0x3F

def update_can_request_id (node_id : UInt8) : UInt32 :=
  UPDATE_CAN_REQUEST_BASE_ID + node_id.toUInt32

def update_can_response_id (node_id : UInt8) : UInt32 :=
  UPDATE_CAN_RESPONSE_BASE_ID + node_id.toUInt32

/-! ## Reassembly -/

/-- `update_can_reassembly_result_t`, with the packet that a completed one points to. -/
inductive UpdateCanReassemblyResult where
  | None
  | Complete (packet : List UInt8)
  | Error
deriving DecidableEq, Repr

/-- `update_can_reassembly_t`. -/
structure UpdateCanReassembly where
  packet : Memory
  expected_len : UInt16
  received_len : UInt16
  next_index : UInt8
  active : Bool

def update_can_reassembly_init : UpdateCanReassembly where
  packet := fun _ => 0
  expected_len := 0
  received_len := 0
  next_index := 0
  active := false

/-- What a call of `update_can_reassembly_feed` returns, and the indices of the
packet buffer that it wrote. -/
structure FeedOut where
  result : UpdateCanReassemblyResult
  stores : List Nat

def fail (stores : List Nat) (reassembly : UpdateCanReassembly) : FeedOut × UpdateCanReassembly :=
  ({ result := .Error, stores }, { reassembly with active := false })

/-- The end of `update_can_reassembly_feed`, from the loop that stores the chunk. -/
def storeChunk (control : UInt8) (chunk : List UInt8) (reassembly : UpdateCanReassembly) :
    FeedOut × UpdateCanReassembly :=
  let start := reassembly.received_len.toNat
  let stores := List.range' start chunk.length
  let packet : Memory := fun index =>
    if start ≤ index ∧ index < start + chunk.length then chunk.getD (index - start) 0
    else reassembly.packet index
  let reassembly :=
    { reassembly with packet, received_len := reassembly.received_len + chunk.length.toUInt16 }
  if control &&& UPDATE_CAN_FRAGMENT_END ≠ 0 then
    if reassembly.received_len ≠ reassembly.expected_len then fail stores reassembly
    else
      ({ result := .Complete ((List.range reassembly.received_len.toNat).map reassembly.packet),
         stores },
        { reassembly with active := false })
  else if reassembly.received_len = reassembly.expected_len then fail stores reassembly
  else ({ result := .None, stores }, reassembly)

theorem getD_data (data : Vector UInt8 8) {i : Nat} (h : i < 8) : data.getD i 0 = data[i] := by
  rw [Vector.getD, Array.getD, dif_pos (by simpa using h)]
  rfl

/-- The bytes of a frame from `data_offset` on. -/
def CanFrame.chunk (frame : CanFrame) (data_offset : Nat) : List UInt8 :=
  (frame.data.toList.take frame.dlc.toNat).drop data_offset

/-- The middle of `update_can_reassembly_feed`, from the computation of `chunk_len`. -/
def takeChunk (frame : CanFrame) (data_offset : Nat) (reassembly : UpdateCanReassembly) :
    FeedOut × UpdateCanReassembly :=
  let control := frame.data.getD 0 0
  let chunk := frame.chunk data_offset
  let useful_len := (reassembly.expected_len.toUInt32 - reassembly.received_len.toUInt32).toNat
  if chunk.length > useful_len then
    if control &&& UPDATE_CAN_FRAGMENT_END = 0 then fail [] reassembly
    else if (chunk.drop useful_len).any (· ≠ 0) then fail [] reassembly
    else storeChunk control (chunk.take useful_len) reassembly
  else storeChunk control chunk reassembly

def update_can_reassembly_feed (reassembly : UpdateCanReassembly) (frame : CanFrame)
    (expected_can_id : UInt32) : FeedOut × UpdateCanReassembly :=
  if frame.dlc = 0 ∨ frame.dlc > CAN_MAX_DATA_LEN then
    ({ result := .Error, stores := [] }, reassembly)
  else if frame.id ≠ expected_can_id then ({ result := .None, stores := [] }, reassembly)
  else
    let control := frame.data.getD 0 0
    let index := control &&& UPDATE_CAN_FRAGMENT_INDEX_MASK
    if control &&& UPDATE_CAN_FRAGMENT_START ≠ 0 then
      if index ≠ 0 ∨ frame.dlc < 3 then fail [] reassembly
      else
        let expected_len := packHalf (frame.data.getD 1 0) (frame.data.getD 2 0)
        let reassembly := { reassembly with expected_len }
        if expected_len.toNat < UPDATE_PROTOCOL_HEADER_SIZE + UPDATE_PROTOCOL_CRC_SIZE ∨
            expected_len.toNat > UPDATE_PROTOCOL_MAX_PACKET_SIZE then
          fail [] reassembly
        else
          takeChunk frame 3 { reassembly with received_len := 0, next_index := 1, active := true }
    else if reassembly.active = false ∨ index ≠ reassembly.next_index then fail [] reassembly
    else takeChunk frame 1 { reassembly with next_index := reassembly.next_index + 1 }

/-! ## Fragments -/

/-- `update_can_fragmenter_t`, with the bytes that `packet` points to. -/
structure UpdateCanFragmenter where
  packet : List UInt8
  offset : Nat
  can_id : UInt32
  fragment_index : UInt8

def update_can_fragmenter_init (can_id : UInt32) (packet : List UInt8) :
    Option UpdateCanFragmenter :=
  if packet.length < UPDATE_PROTOCOL_HEADER_SIZE + UPDATE_PROTOCOL_CRC_SIZE ∨
      packet.length > UPDATE_PROTOCOL_MAX_PACKET_SIZE ∨ can_id > 0x7FF then none
  else some { packet, offset := 0, can_id, fragment_index := 0 }

/-- The eight bytes of a frame, with zeros after the ones given. -/
def frameData (bytes : List UInt8) : Vector UInt8 8 := Vector.ofFn fun i => bytes.getD i 0

def update_can_fragmenter_next (fragmenter : UpdateCanFragmenter) :
    Option (CanFrame × UpdateCanFragmenter) :=
  let packet_len := fragmenter.packet.length
  if fragmenter.offset ≥ packet_len then none
  else
    let header_len := if fragmenter.offset = 0 then 3 else 1
    let capacity := CAN_MAX_DATA_LEN.toNat - header_len
    let remaining := packet_len - fragmenter.offset
    let chunk_len := if remaining < capacity then remaining else capacity
    let control := fragmenter.fragment_index &&& UPDATE_CAN_FRAGMENT_INDEX_MASK
    let control := if fragmenter.offset = 0 then control ||| UPDATE_CAN_FRAGMENT_START else control
    let control := if chunk_len = remaining then control ||| UPDATE_CAN_FRAGMENT_END else control
    let header :=
      if header_len = 3 then [control, packet_len.toUInt8, (packet_len >>> 8).toUInt8]
      else [control]
    some
      ({ id := fragmenter.can_id
         dlc := CAN_MAX_DATA_LEN
         data := frameData (header ++ (fragmenter.packet.drop fragmenter.offset).take chunk_len) },
        { fragmenter with
          offset := fragmenter.offset + chunk_len
          fragment_index := fragmenter.fragment_index + 1 })

/-! ## Storing a chunk -/

/-- The reassembly has received `bytes` of a packet of `len` bytes. -/
structure Received (reassembly : UpdateCanReassembly) (len : Nat) (bytes : List UInt8) : Prop where
  expected : reassembly.expected_len.toNat = len
  received : reassembly.received_len.toNat = bytes.length
  room : bytes.length ≤ len
  fits : len ≤ 148
  packet : Holds reassembly.packet bytes

def CanFrame.Starts (frame : CanFrame) : Prop :=
  frame.data.getD 0 0 &&& UPDATE_CAN_FRAGMENT_START ≠ 0

def CanFrame.Ends (frame : CanFrame) : Prop := frame.data.getD 0 0 &&& UPDATE_CAN_FRAGMENT_END ≠ 0

instance (frame : CanFrame) : Decidable frame.Starts := inferInstanceAs (Decidable (_ ≠ _))

instance (frame : CanFrame) : Decidable frame.Ends := inferInstanceAs (Decidable (_ ≠ _))

theorem map_range_holds {m : Memory} {bytes : List UInt8} (h : Holds m bytes) :
    (List.range bytes.length).map m = bytes := by
  apply List.ext_getElem
  · simp
  · intro i hi hi'
    simp [h i hi']

section
variable {reassembly : UpdateCanReassembly} {len : Nat} {bytes chunk : List UInt8}

/-- The state after the loop that stores the chunk. -/
theorem received_stored (h : Received reassembly len bytes)
    (hroom : bytes.length + chunk.length ≤ len) :
    Received { reassembly with
      packet := fun index =>
        if reassembly.received_len.toNat ≤ index ∧
            index < reassembly.received_len.toNat + chunk.length then
          chunk.getD (index - reassembly.received_len.toNat) 0
        else reassembly.packet index
      received_len := reassembly.received_len + chunk.length.toUInt16 } len (bytes ++ chunk) := by
  have hfits := h.fits
  have hchunk : chunk.length.toUInt16.toNat = chunk.length :=
    UInt16.toNat_ofNat_of_lt' (by show _ < 2 ^ 16; omega)
  refine ⟨h.expected, ?_, by simpa using hroom, h.fits, ?_⟩
  · rw [UInt16.toNat_add, hchunk, h.received, List.length_append]
    exact Nat.mod_eq_of_lt (by omega)
  · apply Holds.append
    · apply h.packet.congr
      intro i hi
      rw [h.received]
      exact if_neg (by omega)
    · intro k hk
      dsimp only
      rw [h.received, if_pos (by omega), Nat.add_sub_cancel_left, List.getD_eq_getElem]

/-- The end of a frame that has room: the packet is complete, or goes on, or is dropped. -/
theorem storeChunk_cases (h : Received reassembly len bytes)
    (hroom : bytes.length + chunk.length ≤ len) (control : UInt8) :
    let out := storeChunk control chunk reassembly
    (∀ i ∈ out.1.stores, i < 148) ∧
      (control &&& UPDATE_CAN_FRAGMENT_END ≠ 0 ∧ bytes.length + chunk.length = len ∧
          out.1.result = .Complete (bytes ++ chunk) ∧ out.2.active = false ∨
        control &&& UPDATE_CAN_FRAGMENT_END = 0 ∧ bytes.length + chunk.length < len ∧
          out.1.result = .None ∧ Received out.2 len (bytes ++ chunk) ∧
          out.2.active = reassembly.active ∧ out.2.next_index = reassembly.next_index ∨
        ¬ (control &&& UPDATE_CAN_FRAGMENT_END ≠ 0 ∧ bytes.length + chunk.length = len) ∧
          ¬ (control &&& UPDATE_CAN_FRAGMENT_END = 0 ∧ bytes.length + chunk.length < len) ∧
          out.1.result = .Error ∧ out.2.active = false) := by
  have hfits := h.fits
  have hstored := received_stored h hroom
  have hsame : reassembly.received_len + chunk.length.toUInt16 = reassembly.expected_len ↔
      bytes.length + chunk.length = len := by
    have hlen := hstored.received
    rw [List.length_append] at hlen
    rw [← UInt16.toNat_inj, h.expected]
    exact iff_of_eq (congrArg (· = len) hlen)
  have hstores : ∀ i ∈ List.range' reassembly.received_len.toNat chunk.length, i < 148 := by
    intro i hi
    rw [List.mem_range'_1, h.received] at hi
    omega
  have hpacket := map_range_holds hstored.packet
  have hreceived := hstored.received
  rw [← hreceived] at hpacket
  intro out
  unfold out storeChunk
  dsimp only at *
  by_cases hend : control &&& UPDATE_CAN_FRAGMENT_END = 0 <;>
    by_cases hfull : bytes.length + chunk.length = len
  · rw [if_neg (not_not.mpr hend), if_pos (hsame.mpr hfull)]
    refine ⟨hstores, Or.inr (Or.inr ⟨fun hboth => hboth.1 hend, ?_, rfl, rfl⟩)⟩
    omega
  · rw [if_neg (not_not.mpr hend), if_neg (fun heq => hfull (hsame.mp heq))]
    exact ⟨hstores, Or.inr (Or.inl ⟨hend, by omega, rfl, hstored, rfl, rfl⟩)⟩
  · rw [if_pos hend, if_neg (not_not.mpr (hsame.mpr hfull)), hpacket]
    exact ⟨hstores, Or.inl ⟨hend, hfull, rfl, rfl⟩⟩
  · rw [if_pos hend, if_pos (fun heq => hfull (hsame.mp heq))]
    exact ⟨hstores,
      Or.inr (Or.inr ⟨fun hboth => hfull hboth.2, fun hboth => hend hboth.1, rfl, rfl⟩)⟩

/-- The frame ends the packet: enough bytes are there, and the excess ones are zero. -/
def Finishes (frame : CanFrame) (len : Nat) (received : List UInt8) : Prop :=
  frame.Ends ∧ len ≤ received.length ∧ ∀ b ∈ received.drop len, b = 0

/-- What a call makes of the bytes that are received with the frame. -/
inductive Taken (frame : CanFrame) (len : Nat) (received : List UInt8)
    (before : UpdateCanReassembly) (out : FeedOut × UpdateCanReassembly) : Prop where
  | complete (finishes : Finishes frame len received)
      (result : out.1.result = .Complete (received.take len)) (active : out.2.active = false)
  | more (open_end : ¬ frame.Ends) (short : received.length < len) (result : out.1.result = .None)
      (holds : Received out.2 len received) (active : out.2.active = before.active)
      (next : out.2.next_index = before.next_index)
  | dropped (not_finished : ¬ Finishes frame len received)
      (not_short : ¬ (¬ frame.Ends ∧ received.length < len)) (result : out.1.result = .Error)
      (active : out.2.active = false)

/-- A chunk that has room. -/
theorem storeChunk_taken (h : Received reassembly len bytes)
    (hroom : bytes.length + chunk.length ≤ len) (frame : CanFrame) :
    (∀ i ∈ (storeChunk (frame.data.getD 0 0) chunk reassembly).1.stores, i < 148) ∧
      Taken frame len (bytes ++ chunk) reassembly
        (storeChunk (frame.data.getD 0 0) chunk reassembly) := by
  have hlength : (bytes ++ chunk).length = bytes.length + chunk.length := List.length_append
  obtain ⟨hstores, ⟨hend, hfull, hresult, hactive⟩ | ⟨hend, hshort, hresult, hreceived, hrest⟩ |
    ⟨hnot, hnot', hresult, hactive⟩⟩ := storeChunk_cases h hroom (frame.data.getD 0 0)
  · have hall : (bytes ++ chunk).take len = bytes ++ chunk := List.take_of_length_le (by omega)
    have hnone : (bytes ++ chunk).drop len = [] := List.drop_of_length_le (by omega)
    refine ⟨hstores, .complete ⟨hend, by omega, ?_⟩ ?_ hactive⟩
    · rw [hnone]
      nofun
    · rwa [hall]
  · exact ⟨hstores, .more (not_not.mpr hend) (by omega) hresult hreceived hrest.1 hrest.2⟩
  · refine ⟨hstores, .dropped ?_ ?_ hresult hactive⟩
    · exact fun hfinishes => hnot ⟨hfinishes.1, by have hle := hfinishes.2.1; omega⟩
    · exact fun hboth => hnot' ⟨not_not.mp hboth.1, by omega⟩

theorem takeChunk_taken (h : Received reassembly len bytes) (frame : CanFrame)
    (data_offset : Nat) :
    (∀ i ∈ (takeChunk frame data_offset reassembly).1.stores, i < 148) ∧
      Taken frame len (bytes ++ frame.chunk data_offset) reassembly
        (takeChunk frame data_offset reassembly) := by
  have hle : reassembly.received_len.toNat ≤ reassembly.expected_len.toNat := by
    rw [h.received, h.expected]
    exact h.room
  have huseful : (reassembly.expected_len.toUInt32 - reassembly.received_len.toUInt32).toNat =
      len - bytes.length := by
    rw [UInt32.toNat_sub_of_le _ _ (by simpa [UInt32.le_iff_toNat_le] using hle)]
    simp [h.expected, h.received]
  have hroom := h.room
  have hdrop : (bytes ++ frame.chunk data_offset).drop len =
      (frame.chunk data_offset).drop (len - bytes.length) := by
    rw [List.drop_append, List.drop_of_length_le hroom, List.nil_append]
  have htake : (bytes ++ frame.chunk data_offset).take len =
      bytes ++ (frame.chunk data_offset).take (len - bytes.length) := by
    rw [List.take_append, List.take_of_length_le hroom]
  unfold takeChunk
  dsimp only
  rw [huseful]
  split_ifs with hlong hend hpad
  · refine ⟨nofun, .dropped (fun hfinishes => hfinishes.1 hend) ?_ rfl rfl⟩
    rw [List.length_append]
    omega
  · refine ⟨nofun, .dropped ?_ ?_ rfl rfl⟩
    · rintro ⟨-, -, hzero⟩
      rw [hdrop] at hzero
      obtain ⟨b, hb, hne⟩ := List.any_eq_true.mp hpad
      exact of_decide_eq_true hne (hzero b hb)
    · rw [List.length_append]
      omega
  · have hlength :
        bytes.length + ((frame.chunk data_offset).take (len - bytes.length)).length = len := by
      rw [List.length_take]
      omega
    have hall : (bytes ++ (frame.chunk data_offset).take (len - bytes.length)).length = len := by
      rw [List.length_append, hlength]
    have hfull :
        Finishes frame len (bytes ++ (frame.chunk data_offset).take (len - bytes.length)) := by
      refine ⟨hend, Nat.le_of_eq hall.symm, ?_⟩
      rw [List.drop_of_length_le (Nat.le_of_eq hall)]
      nofun
    have hfinishes : Finishes frame len (bytes ++ frame.chunk data_offset) := by
      refine ⟨hend, by rw [List.length_append]; omega, ?_⟩
      intro b hb
      rw [hdrop] at hb
      by_contra hne
      exact hpad (List.any_eq_true.mpr ⟨b, hb, decide_eq_true hne⟩)
    obtain ⟨hstores, ⟨-, hresult, hactive⟩ | ⟨hopen⟩ | ⟨hnot⟩⟩ :=
      storeChunk_taken h (Nat.le_of_eq hlength) frame
    · rw [List.take_of_length_le (Nat.le_of_eq hall), ← htake] at hresult
      exact ⟨hstores, .complete hfinishes hresult hactive⟩
    · exact absurd hend hopen
    · exact absurd hfull hnot
  · exact storeChunk_taken h (by omega) frame

end

/-! ## One frame -/

def CanFrame.index (frame : CanFrame) : UInt8 :=
  frame.data.getD 0 0 &&& UPDATE_CAN_FRAGMENT_INDEX_MASK

/-- The length of the packet that a START frame declares. -/
def CanFrame.declared (frame : CanFrame) : Nat :=
  (packHalf (frame.data.getD 1 0) (frame.data.getD 2 0)).toNat

/-- The bytes of the packet in a frame. -/
def CanFrame.payload (frame : CanFrame) : List UInt8 :=
  frame.chunk (if frame.Starts then 3 else 1)

/-- The frames that the reassembly does not ignore. -/
def Relevant (expected_can_id : UInt32) (frame : CanFrame) : Prop :=
  frame.id = expected_can_id ∧ 1 ≤ frame.dlc.toNat ∧ frame.dlc.toNat ≤ 8

instance (expected_can_id : UInt32) (frame : CanFrame) :
    Decidable (Relevant expected_can_id frame) := inferInstanceAs (Decidable (_ ∧ _))

/-- A START frame of a packet of `len` bytes. -/
structure Opening (frame : CanFrame) (len : Nat) : Prop where
  starts : frame.Starts
  index : frame.index = 0
  header : 3 ≤ frame.dlc.toNat
  declared : frame.declared = len
  least : 20 ≤ len
  fits : len ≤ 148

section
variable {reassembly : UpdateCanReassembly} {frame : CanFrame} {expected_can_id : UInt32}
  {len : Nat} {bytes : List UInt8}

theorem dlc_checks (frame : CanFrame) :
    frame.dlc = 0 ∨ frame.dlc > CAN_MAX_DATA_LEN ↔
      ¬ (1 ≤ frame.dlc.toNat ∧ frame.dlc.toNat ≤ 8) := by
  have hzero : frame.dlc = 0 ↔ frame.dlc.toNat = 0 := UInt8.toNat_inj.symm
  have hlong : frame.dlc > CAN_MAX_DATA_LEN ↔ 8 < frame.dlc.toNat := UInt8.lt_iff_toNat_lt
  rw [hzero, hlong]
  omega

theorem feed_irrelevant (reassembly : UpdateCanReassembly)
    (h : ¬ Relevant expected_can_id frame) :
    let out := update_can_reassembly_feed reassembly frame expected_can_id
    (∀ packet, out.1.result ≠ .Complete packet) ∧ out.1.stores = [] ∧ out.2 = reassembly := by
  intro out
  unfold out update_can_reassembly_feed
  by_cases hdlc : frame.dlc = 0 ∨ frame.dlc > CAN_MAX_DATA_LEN
  · rw [if_pos hdlc]
    exact ⟨nofun, rfl, rfl⟩
  · have hid : frame.id ≠ expected_can_id := fun hid =>
      h ⟨hid, not_not.mp ((dlc_checks frame).not.mp hdlc)⟩
    rw [if_neg hdlc, if_pos hid]
    exact ⟨nofun, rfl, rfl⟩

/-- The checks on a frame that is not ignored. -/
theorem feed_relevant (reassembly : UpdateCanReassembly) (h : Relevant expected_can_id frame) :
    update_can_reassembly_feed reassembly frame expected_can_id =
      if frame.Starts then
        if frame.index ≠ 0 ∨ frame.dlc < 3 then fail [] reassembly
        else
          if frame.declared < 20 ∨ frame.declared > 148 then
            fail [] { reassembly with
              expected_len := packHalf (frame.data.getD 1 0) (frame.data.getD 2 0) }
          else
            takeChunk frame 3 { reassembly with
              expected_len := packHalf (frame.data.getD 1 0) (frame.data.getD 2 0)
              received_len := 0
              next_index := 1
              active := true }
      else if reassembly.active = false ∨ frame.index ≠ reassembly.next_index then
        fail [] reassembly
      else takeChunk frame 1 { reassembly with next_index := reassembly.next_index + 1 } := by
  have hdlc : ¬ (frame.dlc = 0 ∨ frame.dlc > CAN_MAX_DATA_LEN) :=
    (dlc_checks frame).not.mpr (not_not.mpr h.2)
  unfold update_can_reassembly_feed
  rw [if_neg hdlc, if_neg (not_not.mpr h.1)]
  rfl

theorem feed_opening (reassembly : UpdateCanReassembly) (h : Relevant expected_can_id frame)
    (opening : Opening frame len) :
    let out := update_can_reassembly_feed reassembly frame expected_can_id
    (∀ i ∈ out.1.stores, i < 148) ∧ Taken frame len frame.payload
      { reassembly with
        expected_len := packHalf (frame.data.getD 1 0) (frame.data.getD 2 0)
        received_len := 0
        next_index := 1
        active := true } out := by
  obtain ⟨hstarts, hindex, hheader, hdeclared, hleast, hfits⟩ := opening
  have hdlc : ¬ (frame.index ≠ 0 ∨ frame.dlc < 3) := by
    have hthree : frame.dlc < 3 ↔ frame.dlc.toNat < 3 := UInt8.lt_iff_toNat_lt
    rw [hthree]
    rintro (hne | hlt)
    · exact hne hindex
    · omega
  have hpayload : frame.payload = frame.chunk 3 := by
    unfold CanFrame.payload
    rw [if_pos hstarts]
  rw [feed_relevant reassembly h, if_pos hstarts, if_neg hdlc, if_neg (by omega), hpayload]
  have hempty : Received { reassembly with
      expected_len := packHalf (frame.data.getD 1 0) (frame.data.getD 2 0)
      received_len := 0
      next_index := 1
      active := true } len [] := ⟨hdeclared, rfl, Nat.zero_le _, hfits, holds_nil _⟩
  exact takeChunk_taken hempty frame 3

/-- A START frame with a wrong header, or a frame out of order, drops what was received. -/
theorem feed_dropped (h : Relevant expected_can_id frame) (not_opening : ∀ len, ¬ Opening frame len)
    (not_next : ¬ (¬ frame.Starts ∧ reassembly.active = true ∧
      frame.index = reassembly.next_index)) :
    let out := update_can_reassembly_feed reassembly frame expected_can_id
    out.1.result = .Error ∧ out.1.stores = [] ∧ out.2.active = false := by
  rw [feed_relevant reassembly h]
  split_ifs with hstarts hheader hlength hstray
  · exact ⟨rfl, rfl, rfl⟩
  · exact ⟨rfl, rfl, rfl⟩
  · have hthree : frame.dlc < 3 ↔ frame.dlc.toNat < 3 := UInt8.lt_iff_toNat_lt
    rw [hthree, not_or, not_not] at hheader
    exact absurd ⟨hstarts, hheader.1, by omega, rfl, by omega, by omega⟩
      (not_opening frame.declared)
  · exact ⟨rfl, rfl, rfl⟩
  · rw [not_or, not_not, Bool.not_eq_false] at hstray
    exact absurd ⟨hstarts, hstray⟩ not_next

theorem feed_next (h : Relevant expected_can_id frame) (not_start : ¬ frame.Starts)
    (hactive : reassembly.active = true) (hindex : frame.index = reassembly.next_index)
    (hreceived : Received reassembly len bytes) :
    let out := update_can_reassembly_feed reassembly frame expected_can_id
    (∀ i ∈ out.1.stores, i < 148) ∧ Taken frame len (bytes ++ frame.payload)
      { reassembly with next_index := reassembly.next_index + 1 } out := by
  have hstray : ¬ (reassembly.active = false ∨ frame.index ≠ reassembly.next_index) := by
    rintro (hfalse | hne)
    · rw [hactive] at hfalse
      cases hfalse
    · exact hne hindex
  have hpayload : frame.payload = frame.chunk 1 := by
    unfold CanFrame.payload
    rw [if_neg not_start]
  rw [feed_relevant reassembly h, if_neg not_start, if_neg hstray, hpayload]
  obtain ⟨hexpected, hlen, hroom, hfits, hpacket⟩ := hreceived
  have hsame : Received { reassembly with next_index := reassembly.next_index + 1 } len bytes :=
    ⟨hexpected, hlen, hroom, hfits, hpacket⟩
  exact takeChunk_taken hsame frame 1

end

/-! ## The group of frames of a packet -/

/-- A START frame and the frames after it, numbered from 1. -/
inductive Numbered (len : Nat) : List CanFrame → Prop where
  | first (frame : CanFrame) (opening : Opening frame len) : Numbered len [frame]
  | next (group : List CanFrame) (frame : CanFrame) (numbered : Numbered len group)
      (not_start : ¬ frame.Starts) (index : frame.index.toNat = group.length) :
      Numbered len (group ++ [frame])

/-- The bytes of the packet in a group of frames. -/
def payloads (group : List CanFrame) : List UInt8 := group.flatMap CanFrame.payload

/-- A group that more frames can end. -/
structure OpenGroup (len : Nat) (group : List CanFrame) : Prop where
  numbered : Numbered len group
  no_end : ∀ frame ∈ group, ¬ frame.Ends
  short : (payloads group).length < len

/-- The frames of a packet of `len` bytes: the group before the last frame is
open, and the last frame brings the rest of the packet. -/
structure PacketGroup (len : Nat) (group : List CanFrame) (last : CanFrame) : Prop where
  numbered : Numbered len (group ++ [last])
  no_end : ∀ frame ∈ group, ¬ frame.Ends
  short : (payloads group).length < len
  finishes : Finishes last len (payloads (group ++ [last]))

@[simp] theorem payloads_concat (group : List CanFrame) (frame : CanFrame) :
    payloads (group ++ [frame]) = payloads group ++ frame.payload := by
  simp [payloads]

theorem Numbered.fits {len : Nat} {group : List CanFrame} (h : Numbered len group) :
    20 ≤ len ∧ len ≤ 148 := by
  induction h with
  | first frame opening => exact ⟨opening.least, opening.fits⟩
  | next group frame numbered not_start index ih => exact ih

theorem Numbered.ne_nil {len : Nat} {group : List CanFrame} (h : Numbered len group) :
    group ≠ [] := by
  cases h <;> simp

/-- The last frame of a numbered group, and the group before it. -/
theorem Numbered.inv {len : Nat} {group : List CanFrame} {frame : CanFrame}
    (h : Numbered len (group ++ [frame])) :
    group = [] ∧ Opening frame len ∨
      Numbered len group ∧ ¬ frame.Starts ∧ frame.index.toNat = group.length := by
  generalize hall : group ++ [frame] = all at h
  cases h with
  | first first opening =>
    have hsplit : group ++ [frame] = [] ++ [first] := hall
    obtain ⟨hnil, hframe⟩ := List.append_inj' hsplit rfl
    rw [List.singleton_inj.mp hframe]
    exact Or.inl ⟨hnil, opening⟩
  | next before last numbered not_start index =>
    obtain ⟨hsame, hframe⟩ := List.append_inj' hall rfl
    rw [hsame, List.singleton_inj.mp hframe]
    exact Or.inr ⟨numbered, not_start, index⟩

/-- The reassembly holds an open group. -/
structure Holding (reassembly : UpdateCanReassembly) (len : Nat) (group : List CanFrame) :
    Prop where
  open_group : OpenGroup len group
  active : reassembly.active = true
  next : reassembly.next_index.toNat = group.length
  received : Received reassembly len (payloads group)

section
variable {reassembly : UpdateCanReassembly} {frame : CanFrame} {expected_can_id : UInt32}
  {len : Nat} {group frames : List CanFrame}

/-- A frame that goes on with the group, or starts one, is taken. -/
theorem feed_grows (h : Relevant expected_can_id frame)
    (numbered : Numbered len (group ++ [frame]))
    (hgroup : group = [] ∨ Holding reassembly len group) :
    let out := update_can_reassembly_feed reassembly frame expected_can_id
    (∀ i ∈ out.1.stores, i < 148) ∧ ∃ before : UpdateCanReassembly, before.active = true ∧
      before.next_index.toNat = group.length + 1 ∧
      Taken frame len (payloads (group ++ [frame])) before out := by
  rcases numbered.inv with ⟨rfl, opening⟩ | ⟨hbefore, not_start, hindex⟩
  · obtain ⟨hstores, htaken⟩ := feed_opening reassembly h opening
    exact ⟨hstores, _, rfl, rfl, by simpa [payloads] using htaken⟩
  · have hholding : Holding reassembly len group := by
      rcases hgroup with hnil | hholding
      · exact absurd hnil hbefore.ne_nil
      · exact hholding
    obtain ⟨-, hactive, hnext, hreceived⟩ := hholding
    have hsame : frame.index = reassembly.next_index :=
      UInt8.toNat_inj.mp (hindex.trans hnext.symm)
    have hsmall : frame.index.toNat ≤ 63 := by
      unfold CanFrame.index
      rw [UInt8.toNat_and]
      exact Nat.and_le_right
    obtain ⟨hstores, htaken⟩ := feed_next h not_start hactive hsame hreceived
    have hcount : (reassembly.next_index + 1).toNat = group.length + 1 := by
      rw [UInt8.toNat_add, hnext, ← hindex]
      exact Nat.mod_eq_of_lt (by show frame.index.toNat + 1 < 256; omega)
    refine ⟨hstores, { reassembly with next_index := reassembly.next_index + 1 }, hactive, hcount,
      ?_⟩
    rwa [payloads_concat]

/-- The frame of an open group leaves the reassembly with the group. -/
theorem feed_open (h : Relevant expected_can_id frame)
    (hopen : OpenGroup len (group ++ [frame]))
    (hgroup : group = [] ∨ Holding reassembly len group) :
    let out := update_can_reassembly_feed reassembly frame expected_can_id
    out.1.result = .None ∧ Holding out.2 len (group ++ [frame]) := by
  obtain ⟨-, before, hactive, hnext, htaken⟩ := feed_grows h hopen.numbered hgroup
  have hend : ¬ frame.Ends := hopen.no_end frame (by simp)
  rcases htaken with ⟨hfinishes⟩ | ⟨-, -, hresult, hreceived, hactive', hnext'⟩ | ⟨-, hnot⟩
  · exact absurd hfinishes.1 hend
  · refine ⟨hresult, hopen, hactive'.trans hactive, ?_, hreceived⟩
    rw [hnext', hnext, List.length_append]
    rfl
  · exact absurd ⟨hend, hopen.short⟩ hnot

/-- The last frame of a packet gives the packet. -/
theorem feed_packet (h : Relevant expected_can_id frame) (hpacket : PacketGroup len group frame)
    (hgroup : group = [] ∨ Holding reassembly len group) :
    (update_can_reassembly_feed reassembly frame expected_can_id).1.result =
      .Complete ((payloads (group ++ [frame])).take len) := by
  obtain ⟨-, before, -, -, htaken⟩ := feed_grows h hpacket.numbered hgroup
  rcases htaken with ⟨-, hresult⟩ | ⟨hend⟩ | ⟨hnot⟩
  · exact hresult
  · exact absurd hpacket.finishes.1 hend
  · exact absurd hpacket.finishes hnot

end

/-! ## Any sequence of frames -/

/-- The reassembly holds the open group at the end of the frames, if there is one. -/
structure Tracks (reassembly : UpdateCanReassembly) (frames : List CanFrame) : Prop where
  sound : reassembly.active = true →
    ∃ before len group, frames = before ++ group ∧ Holding reassembly len group
  complete : ∀ before len group, frames = before ++ group → OpenGroup len group →
    Holding reassembly len group

theorem tracks_init : Tracks update_can_reassembly_init [] := by
  refine ⟨nofun, ?_⟩
  intro before len group hall hopen
  have hnil := (List.append_eq_nil_iff.mp hall.symm).2
  exact absurd hnil hopen.numbered.ne_nil

section
variable {reassembly : UpdateCanReassembly} {frame : CanFrame} {expected_can_id : UInt32}
  {frames : List CanFrame}

/-- The group before a frame is held when it is open. -/
theorem Tracks.group_held (h : Tracks reassembly frames) {before : List CanFrame} {len : Nat}
    {group : List CanFrame} (hall : frames = before ++ group)
    (numbered : Numbered len (group ++ [frame])) (no_end : ∀ frame ∈ group, ¬ frame.Ends)
    (short : (payloads group).length < len) : group = [] ∨ Holding reassembly len group := by
  rcases numbered.inv with ⟨hnil, -⟩ | ⟨hbefore, -, -⟩
  · exact Or.inl hnil
  · exact Or.inr (h.complete before len group hall ⟨hbefore, no_end, short⟩)

/-- What an open group is before its last frame. -/
theorem OpenGroup.before {len : Nat} {group : List CanFrame}
    (h : OpenGroup len (group ++ [frame])) :
    (∀ frame ∈ group, ¬ frame.Ends) ∧ (payloads group).length < len := by
  refine ⟨fun other hmem => h.no_end other (by simp [hmem]), ?_⟩
  have hshort := h.short
  rw [payloads_concat, List.length_append] at hshort
  omega

/-- A frame that starts no packet and goes on with none. -/
theorem feed_stray (h : Relevant expected_can_id frame) (tracks : Tracks reassembly frames)
    (hnone : ¬ ∃ before len group, frames = before ++ group ∧ Numbered len (group ++ [frame]) ∧
      (group = [] ∨ Holding reassembly len group)) :
    let out := update_can_reassembly_feed reassembly frame expected_can_id
    out.1.result = .Error ∧ out.1.stores = [] ∧ out.2.active = false := by
  apply feed_dropped h
  · intro len opening
    exact hnone ⟨frames, len, [], by simp, .first frame opening, Or.inl rfl⟩
  · rintro ⟨not_start, hactive, hindex⟩
    obtain ⟨before, len, group, hall, hholding⟩ := tracks.sound hactive
    have hnumber : frame.index.toNat = group.length := by rw [hindex, hholding.next]
    exact hnone ⟨before, len, group, hall,
      .next group frame hholding.open_group.numbered not_start hnumber, Or.inr hholding⟩

/-- One frame: the open group is tracked, and a packet completes exactly at its last frame. -/
theorem tracks_feed (h : Relevant expected_can_id frame) (tracks : Tracks reassembly frames) :
    let out := update_can_reassembly_feed reassembly frame expected_can_id
    Tracks out.2 (frames ++ [frame]) ∧ (∀ i ∈ out.1.stores, i < 148) ∧
      ∀ packet, out.1.result = .Complete packet ↔
        ∃ before len group, frames = before ++ group ∧ PacketGroup len group frame ∧
          packet = (payloads (group ++ [frame])).take len := by
  intro out
  have hcomplete : ∀ before len group, frames ++ [frame] = before ++ group → OpenGroup len group →
      Holding out.2 len group := by
    intro before len group hall hopen
    obtain ⟨init, last, rfl⟩ :=
      (List.eq_nil_or_concat' group).resolve_left hopen.numbered.ne_nil
    rw [← List.append_assoc] at hall
    obtain ⟨hinit, hlast⟩ := List.append_inj' hall rfl
    obtain rfl := List.singleton_inj.mp hlast
    have hgroup := tracks.group_held hinit hopen.numbered hopen.before.1 hopen.before.2
    exact (feed_open h hopen hgroup).2
  have hpacket : ∀ before len group, frames = before ++ group → PacketGroup len group frame →
      out.1.result = .Complete ((payloads (group ++ [frame])).take len) := by
    intro before len group hall packet
    exact feed_packet h packet (tracks.group_held hall packet.numbered packet.no_end packet.short)
  by_cases hgrow : ∃ before len group, frames = before ++ group ∧
      Numbered len (group ++ [frame]) ∧ (group = [] ∨ Holding reassembly len group)
  · obtain ⟨before, len, group, hall, numbered, hgroup⟩ := hgrow
    obtain ⟨hstores, mid, hactive, hnext, htaken⟩ := feed_grows h numbered hgroup
    have hbefore : (∀ frame ∈ group, ¬ frame.Ends) ∧ (payloads group).length < len := by
      rcases hgroup with rfl | hholding
      · have hfits := numbered.fits
        exact ⟨nofun, by show 0 < len; omega⟩
      · exact ⟨hholding.open_group.no_end, hholding.open_group.short⟩
    refine ⟨⟨?_, hcomplete⟩, hstores, ?_⟩
    · intro hstill
      rcases htaken with ⟨-, -, hdone⟩ | ⟨hend, hshort, -, hreceived, -, hnext'⟩ | ⟨-, -, -, hdone⟩
      · rw [show out.2.active = false from hdone] at hstill
        cases hstill
      · have hopen : OpenGroup len (group ++ [frame]) := by
          refine ⟨numbered, ?_, hshort⟩
          intro other hmem
          rcases List.mem_append.mp hmem with hmem | hmem
          · exact hbefore.1 other hmem
          · rwa [List.mem_singleton.mp hmem]
        have hheld := (feed_open h hopen hgroup).2
        exact ⟨before, len, group ++ [frame], by rw [hall, List.append_assoc], hheld⟩
      · rw [show out.2.active = false from hdone] at hstill
        cases hstill
    · intro packet
      constructor
      · intro hresult
        rcases htaken with ⟨hfinishes, hdone, -⟩ | ⟨-, -, hdone⟩ | ⟨-, -, hdone⟩
        · have hsame := hresult.symm.trans hdone
          exact ⟨before, len, group, hall, ⟨numbered, hbefore.1, hbefore.2, hfinishes⟩,
            UpdateCanReassemblyResult.Complete.inj hsame⟩
        · cases hresult.symm.trans hdone
        · cases hresult.symm.trans hdone
      · rintro ⟨before', len', group', hall', hgroup', rfl⟩
        exact hpacket before' len' group' hall' hgroup'
  · obtain ⟨hresult, hstores, hactive⟩ := feed_stray h tracks hgrow
    refine ⟨⟨?_, hcomplete⟩, ?_, ?_⟩
    · intro hstill
      rw [show out.2.active = false from hactive] at hstill
      cases hstill
    · rw [show out.1.stores = [] from hstores]
      nofun
    · intro packet
      constructor
      · intro hdone
        cases hdone.symm.trans hresult
      · rintro ⟨before, len, group, hall, hgroup, rfl⟩
        exact hpacket before len group hall hgroup

/-- The reassembly after a sequence of frames. -/
def feedAll (expected_can_id : UInt32) (reassembly : UpdateCanReassembly)
    (frames : List CanFrame) : UpdateCanReassembly :=
  frames.foldl (fun reassembly frame =>
    (update_can_reassembly_feed reassembly frame expected_can_id).2) reassembly

theorem tracks_feedAll {past : List CanFrame} (tracks : Tracks reassembly past)
    (expected_can_id : UInt32) (frames : List CanFrame) :
    Tracks (feedAll expected_can_id reassembly frames)
      (past ++ frames.filter fun frame => Relevant expected_can_id frame) := by
  induction frames generalizing reassembly past with
  | nil => simpa [feedAll] using tracks
  | cons frame frames ih =>
    by_cases hrelevant : Relevant expected_can_id frame
    · have hnext := ih (tracks_feed hrelevant tracks).1
      rw [List.append_assoc] at hnext
      simpa [hrelevant, feedAll] using hnext
    · have hsame := (feed_irrelevant reassembly hrelevant).2.2
      have hnext := ih tracks
      simpa [hrelevant, feedAll, hsame] using hnext

end

/-- A packet completes at a frame exactly when the frame is the last of a group
of a packet, among the frames that are not ignored. The packet is the bytes of
the group up to its length, and every byte is stored inside the buffer. -/
theorem complete_iff_group (expected_can_id : UInt32) (frames : List CanFrame)
    (frame : CanFrame) :
    let out := (update_can_reassembly_feed
      (feedAll expected_can_id update_can_reassembly_init frames) frame expected_can_id).1
    (∀ i ∈ out.stores, i < UPDATE_PROTOCOL_MAX_PACKET_SIZE) ∧
      ∀ packet, out.result = .Complete packet ↔
        Relevant expected_can_id frame ∧
          ∃ before len group, (frames.filter fun frame => Relevant expected_can_id frame) =
              before ++ group ∧ PacketGroup len group frame ∧
            packet = (payloads (group ++ [frame])).take len := by
  intro out
  have tracks := tracks_feedAll tracks_init expected_can_id frames
  rw [List.nil_append] at tracks
  by_cases hrelevant : Relevant expected_can_id frame
  · obtain ⟨-, hstores, hcomplete⟩ := tracks_feed hrelevant tracks
    refine ⟨hstores, fun packet => ?_⟩
    rw [hcomplete packet]
    exact ⟨fun h => ⟨hrelevant, h⟩, fun h => h.2⟩
  · obtain ⟨hresult, hstores, -⟩ :=
      feed_irrelevant (feedAll expected_can_id update_can_reassembly_init frames) hrelevant
    refine ⟨?_, fun packet => ?_⟩
    · rw [show out.stores = [] from hstores]
      nofun
    · exact iff_of_false (hresult packet) fun h => hrelevant h.1

end stm32_vibe.update_can
