-- From the fragmenter through the bus to the reassembly: whatever the
-- reassembly held before, and whatever other nodes send in between, the frames
-- of a packet give the packet back.
import Stm32Vibe.UpdateCan

namespace stm32_vibe.can_transport

open little_endian update_protocol update_can

/-! ## One frame of the fragmenter -/

/-- The control byte that the fragmenter builds. -/
def controlOf (index : UInt8) (starts ends : Prop) [Decidable starts] [Decidable ends] : UInt8 :=
  let control := index &&& UPDATE_CAN_FRAGMENT_INDEX_MASK
  let control := if starts then control ||| UPDATE_CAN_FRAGMENT_START else control
  if ends then control ||| UPDATE_CAN_FRAGMENT_END else control

theorem controlOf_bits (index : UInt8) (starts ends : Prop) [Decidable starts]
    [Decidable ends] :
    controlOf index starts ends &&& UPDATE_CAN_FRAGMENT_INDEX_MASK =
        index &&& UPDATE_CAN_FRAGMENT_INDEX_MASK ∧
      (controlOf index starts ends &&& UPDATE_CAN_FRAGMENT_START ≠ 0 ↔ starts) ∧
      (controlOf index starts ends &&& UPDATE_CAN_FRAGMENT_END ≠ 0 ↔ ends) := by
  have hor : ∀ a b c : UInt8, (a ||| b) &&& c = (a &&& c) ||| (b &&& c) := by
    intro a b c
    apply UInt8.toBitVec_inj.mp
    ext i
    simp [Bool.and_or_distrib_right]
  have hand : ∀ c : UInt8, (index &&& 63) &&& c = index &&& (63 &&& c) :=
    fun c => UInt8.and_assoc _ _ _
  have hbits : (63 : UInt8) &&& 128 = 0 ∧ (63 : UInt8) &&& 64 = 0 ∧ (128 : UInt8) &&& 63 = 0 ∧
      (64 : UInt8) &&& 63 = 0 ∧ (128 : UInt8) &&& 64 = 0 ∧ (64 : UInt8) &&& 128 = 0 := by
    decide
  obtain ⟨h1, h2, h3, h4, h5, h6⟩ := hbits
  unfold controlOf
  by_cases hs : starts <;> by_cases he : ends <;>
    simp [UPDATE_CAN_FRAGMENT_INDEX_MASK, UPDATE_CAN_FRAGMENT_START, UPDATE_CAN_FRAGMENT_END,
      hs, he, hor, hand, h1, h2, h3, h4, h5, h6]

/-- The bytes that a frame of the fragmenter has room for. -/
def capacityAt (offset : Nat) : Nat := if offset = 0 then 5 else 7

theorem frameData_chunk {header chunk : List UInt8} (h : header.length + chunk.length ≤ 8) :
    (frameData (header ++ chunk)).toList.drop header.length =
      chunk ++ List.replicate (8 - header.length - chunk.length) 0 := by
  apply List.ext_getElem
  · simp
    omega
  · intro i hi hi'
    simp only [frameData, List.getElem_drop, Vector.getElem_toList, Vector.getElem_ofFn]
    rw [List.getD_append_right _ _ _ _ (by omega), Nat.add_sub_cancel_left]
    by_cases hchunk : i < chunk.length
    · rw [List.getD_eq_getElem _ _ hchunk, List.getElem_append_left hchunk]
    · rw [List.getD_eq_default _ _ (by omega), List.getElem_append_right (by omega),
        List.getElem_replicate]

section
variable (fragmenter : UpdateCanFragmenter)

def sentChunk : List UInt8 :=
  (fragmenter.packet.drop fragmenter.offset).take (capacityAt fragmenter.offset)

def sentControl : UInt8 :=
  controlOf fragmenter.fragment_index (fragmenter.offset = 0)
    (fragmenter.packet.length ≤ fragmenter.offset + capacityAt fragmenter.offset)

def sentHeader : List UInt8 :=
  if fragmenter.offset = 0 then
    [sentControl fragmenter, fragmenter.packet.length.toUInt8,
      (fragmenter.packet.length >>> 8).toUInt8]
  else [sentControl fragmenter]

def sentFrame : CanFrame where
  id := fragmenter.can_id
  dlc := CAN_MAX_DATA_LEN
  data := frameData (sentHeader fragmenter ++ sentChunk fragmenter)

def afterSend : UpdateCanFragmenter where
  packet := fragmenter.packet
  offset := fragmenter.offset + (sentChunk fragmenter).length
  can_id := fragmenter.can_id
  fragment_index := fragmenter.fragment_index + 1

end

variable {fragmenter : UpdateCanFragmenter}

theorem length_chunk : (sentChunk fragmenter).length =
    min (capacityAt fragmenter.offset) (fragmenter.packet.length - fragmenter.offset) := by
  simp [sentChunk]

/-- The call of the fragmenter, with the least of what is left and the capacity as a `take`. -/
theorem next_eq (h : fragmenter.offset < fragmenter.packet.length) :
    update_can_fragmenter_next fragmenter = some (sentFrame fragmenter, afterSend fragmenter) := by
  have hchunk := @length_chunk fragmenter
  have hcapacity : CAN_MAX_DATA_LEN.toNat - (if fragmenter.offset = 0 then 3 else 1) =
      capacityAt fragmenter.offset := by
    unfold capacityAt
    split <;> rfl
  have hleast : (if fragmenter.packet.length - fragmenter.offset < capacityAt fragmenter.offset
      then fragmenter.packet.length - fragmenter.offset else capacityAt fragmenter.offset) =
      (sentChunk fragmenter).length := by
    rw [hchunk]
    split <;> omega
  have htake : (fragmenter.packet.drop fragmenter.offset).take (sentChunk fragmenter).length =
      sentChunk fragmenter := by
    unfold sentChunk
    rw [List.length_take, ← List.take_take, List.take_length]
  have hlast : (sentChunk fragmenter).length = fragmenter.packet.length - fragmenter.offset ↔
      fragmenter.packet.length ≤ fragmenter.offset + capacityAt fragmenter.offset := by
    rw [hchunk]
    omega
  unfold update_can_fragmenter_next
  simp only [hcapacity, hleast, hlast, htake]
  rw [if_neg (by omega)]
  unfold sentFrame afterSend sentHeader
    sentControl controlOf
  by_cases h0 : fragmenter.offset = 0 <;> simp [h0]

theorem next_done (h : fragmenter.packet.length ≤ fragmenter.offset) :
    update_can_fragmenter_next fragmenter = none := if_pos h

theorem frameData_get (bytes : List UInt8) {i : Nat} (h : i < 8) :
    (frameData bytes).getD i 0 = bytes.getD i 0 := by
  rw [getD_data _ h]
  simp [frameData]

theorem sent_control : (sentFrame fragmenter).data.getD 0 0 = sentControl fragmenter := by
  unfold sentFrame
  dsimp only
  rw [frameData_get _ (by decide)]
  unfold sentHeader
  split <;> rfl

theorem sent_starts : (sentFrame fragmenter).Starts ↔ fragmenter.offset = 0 := by
  unfold CanFrame.Starts
  rw [sent_control]
  exact (controlOf_bits _ _ _).2.1

theorem sent_ends : (sentFrame fragmenter).Ends ↔
    fragmenter.packet.length ≤ fragmenter.offset + capacityAt fragmenter.offset := by
  unfold CanFrame.Ends
  rw [sent_control]
  exact (controlOf_bits _ _ _).2.2

theorem sent_index (h : fragmenter.fragment_index.toNat < 64) :
    (sentFrame fragmenter).index = fragmenter.fragment_index := by
  unfold CanFrame.index
  rw [sent_control]
  apply UInt8.toNat_inj.mp
  rw [sentControl, (controlOf_bits _ _ _).1, UInt8.toNat_and]
  exact (Nat.and_two_pow_sub_one_eq_mod _ 6).trans (Nat.mod_eq_of_lt h)

theorem sent_declared (h0 : fragmenter.offset = 0) (hlength : fragmenter.packet.length < 2 ^ 16) :
    (sentFrame fragmenter).declared = fragmenter.packet.length := by
  have hlow : (sentFrame fragmenter).data.getD 1 0 = fragmenter.packet.length.toUInt8 := by
    unfold sentFrame
    dsimp only
    rw [frameData_get _ (by decide), sentHeader, if_pos h0]
    rfl
  have hhigh : (sentFrame fragmenter).data.getD 2 0 = (fragmenter.packet.length >>> 8).toUInt8 := by
    unfold sentFrame
    dsimp only
    rw [frameData_get _ (by decide), sentHeader, if_pos h0]
    rfl
  unfold CanFrame.declared
  rw [hlow, hhigh, packHalf_toNat]
  simp [Nat.shiftRight_eq_div_pow]
  omega

/-- The payload of a frame is the chunk, with zeros after the last one. -/
theorem sent_payload : (sentFrame fragmenter).payload =
    sentChunk fragmenter ++
      List.replicate (capacityAt fragmenter.offset - (sentChunk fragmenter).length) 0 := by
  have hchunk := @length_chunk fragmenter
  have hall : ((sentFrame fragmenter).data.toList.take (sentFrame fragmenter).dlc.toNat) =
      (sentFrame fragmenter).data.toList := List.take_of_length_le (by simp [sentFrame]; decide)
  unfold CanFrame.payload CanFrame.chunk
  rw [hall]
  simp only [sent_starts]
  by_cases h0 : fragmenter.offset = 0
  · have hheader : (sentHeader fragmenter).length = 3 := by simp [sentHeader, h0]
    have hcapacity : capacityAt fragmenter.offset = 5 := if_pos h0
    have hdrop := @frameData_chunk (sentHeader fragmenter) (sentChunk fragmenter) (by omega)
    rw [hheader] at hdrop
    rw [if_pos h0, hcapacity]
    exact hdrop
  · have hheader : (sentHeader fragmenter).length = 1 := by simp [sentHeader, h0]
    have hcapacity : capacityAt fragmenter.offset = 7 := if_neg h0
    have hdrop := @frameData_chunk (sentHeader fragmenter) (sentChunk fragmenter) (by omega)
    rw [hheader] at hdrop
    rw [if_neg h0, hcapacity]
    exact hdrop

theorem sent_relevant : Relevant fragmenter.can_id (sentFrame fragmenter) :=
  ⟨rfl, by simp [sentFrame]; decide⟩

/-! ## All frames of a packet -/

theorem chunk_positive (h : fragmenter.offset < fragmenter.packet.length) :
    0 < (sentChunk fragmenter).length := by
  have hcapacity : 5 ≤ capacityAt fragmenter.offset := by
    unfold capacityAt
    split <;> omega
  rw [length_chunk]
  omega

/-- Every call sends some of the packet. -/
theorem next_advances {frame : CanFrame} {next : UpdateCanFragmenter}
    (h : update_can_fragmenter_next fragmenter = some (frame, next)) :
    next.packet.length - next.offset < fragmenter.packet.length - fragmenter.offset := by
  by_cases hleft : fragmenter.offset < fragmenter.packet.length
  · rw [next_eq hleft] at h
    obtain ⟨-, rfl⟩ := Prod.mk.inj (Option.some.inj h)
    have hchunk := chunk_positive hleft
    simp only [afterSend]
    omega
  · rw [next_done (by omega)] at h
    cases h

/-- The loop over `update_can_fragmenter_next`: its frames, and the fragmenter at its end. -/
def fragments (fragmenter : UpdateCanFragmenter) : List CanFrame × UpdateCanFragmenter :=
  match _h : update_can_fragmenter_next fragmenter with
  | none => ([], fragmenter)
  | some (frame, next) =>
    let rest := fragments next
    (frame :: rest.1, rest.2)
termination_by fragmenter.packet.length - fragmenter.offset
decreasing_by exact next_advances _h

theorem fragments_next (h : fragmenter.offset < fragmenter.packet.length) :
    fragments fragmenter = (sentFrame fragmenter :: (fragments (afterSend fragmenter)).1,
      (fragments (afterSend fragmenter)).2) := by
  have hnext := next_eq h
  rw [fragments]
  split
  · rename_i hnone
    rw [hnone] at hnext
    cases hnext
  · rename_i frame next hsome
    obtain ⟨rfl, rfl⟩ := Prod.mk.inj (Option.some.inj (hsome.symm.trans hnext))
    rfl

theorem fragments_done (h : fragmenter.packet.length ≤ fragmenter.offset) :
    fragments fragmenter = ([], fragmenter) := by
  have hnext := next_done h
  rw [fragments]
  split
  · rfl
  · rename_i frame next hsome
    rw [hsome] at hnext
    cases hnext

/-- The frames in `group` are sent, and more of the packet is left. -/
structure Sending (fragmenter : UpdateCanFragmenter) (packet : List UInt8) (can_id : UInt32)
    (group : List CanFrame) : Prop where
  packet_eq : fragmenter.packet = packet
  can_id_eq : fragmenter.can_id = can_id
  index : fragmenter.fragment_index.toNat = group.length
  left : fragmenter.offset < packet.length
  sent : payloads group = packet.take fragmenter.offset
  group_open : group = [] ∧ fragmenter.offset = 0 ∨
    OpenGroup packet.length group ∧ fragmenter.offset + 2 = 7 * group.length

section
variable {packet : List UInt8} {can_id : UInt32} {group : List CanFrame}

theorem Sending.numbered (h : Sending fragmenter packet can_id group)
    (hleast : 20 ≤ packet.length) (hfits : packet.length ≤ 148) :
    Numbered packet.length (group ++ [sentFrame fragmenter]) := by
  obtain ⟨rfl, -, hindex, hleft, -, ⟨rfl, h0⟩ | ⟨hopen, hoffset⟩⟩ := h
  · have hfirst : (sentFrame fragmenter).index = fragmenter.fragment_index :=
      sent_index (by rw [hindex]; decide)
    have hdlc : 3 ≤ CAN_MAX_DATA_LEN.toNat := by decide
    refine .first _ ⟨sent_starts.mpr h0, ?_, hdlc, sent_declared h0 (by omega), hleast, hfits⟩
    exact hfirst.trans (UInt8.toNat_inj.mp hindex)
  · have hsmall : fragmenter.fragment_index.toNat < 64 := by omega
    have hstarts : ¬ (sentFrame fragmenter).Starts := by
      have hpos := List.length_pos_of_ne_nil hopen.numbered.ne_nil
      rw [sent_starts]
      omega
    exact .next group _ hopen.numbered hstarts (by rw [sent_index hsmall, hindex])

/-- The bytes of the packet that are sent with the next frame. -/
theorem Sending.payloads_next (h : Sending fragmenter packet can_id group) :
    payloads (group ++ [sentFrame fragmenter]) =
      packet.take (fragmenter.offset + capacityAt fragmenter.offset) ++
        List.replicate (capacityAt fragmenter.offset - (sentChunk fragmenter).length) 0 := by
  rw [payloads_concat, sent_payload, h.sent, ← List.append_assoc]
  congr 1
  unfold sentChunk
  rw [h.packet_eq, List.take_add]

/-- One frame of the fragmenter: it is the last of the packet, or the group stays open. -/
theorem Sending.next (h : Sending fragmenter packet can_id group)
    (hleast : 20 ≤ packet.length) (hfits : packet.length ≤ 148) :
    PacketGroup packet.length group (sentFrame fragmenter) ∧
        (payloads (group ++ [sentFrame fragmenter])).take packet.length = packet ∧
        (afterSend fragmenter).offset = packet.length ∧ (packet.length + 1) / 7 = group.length ∨
      Sending (afterSend fragmenter) packet can_id (group ++ [sentFrame fragmenter]) := by
  have hnumbered := h.numbered hleast hfits
  have hpayloads := h.payloads_next
  have hchunk := @length_chunk fragmenter
  have hcapacity : capacityAt fragmenter.offset = 5 ∧ group = [] ∧ fragmenter.offset = 0 ∨
      capacityAt fragmenter.offset = 7 ∧ OpenGroup packet.length group ∧
        fragmenter.offset + 2 = 7 * group.length := by
    rcases h.group_open with ⟨hnil, h0⟩ | ⟨hopen, hoffset⟩
    · exact Or.inl ⟨if_pos h0, hnil, h0⟩
    · have hpos := List.length_pos_of_ne_nil hopen.numbered.ne_nil
      exact Or.inr ⟨if_neg (by omega), hopen, hoffset⟩
  have hbefore : (∀ frame ∈ group, ¬ frame.Ends) ∧ (payloads group).length < packet.length := by
    rcases hcapacity with ⟨-, rfl, -⟩ | ⟨-, hopen, -⟩
    · exact ⟨nofun, by show 0 < packet.length; omega⟩
    · exact ⟨hopen.no_end, hopen.short⟩
  obtain ⟨hpacket, hid, hindex, hleft, hsent, -⟩ := h
  rw [hpacket] at hchunk
  by_cases hlast : packet.length ≤ fragmenter.offset + capacityAt fragmenter.offset
  · left
    rw [List.take_of_length_le hlast] at hpayloads
    refine ⟨⟨hnumbered, hbefore.1, hbefore.2, ?_, ?_, ?_⟩, ?_, ?_, ?_⟩
    · rw [sent_ends, hpacket]
      exact hlast
    · rw [hpayloads, List.length_append]
      omega
    · intro b hb
      rw [hpayloads, List.drop_left] at hb
      exact List.eq_of_mem_replicate hb
    · rw [hpayloads, List.take_left]
    · simp only [afterSend]
      omega
    · omega
  · right
    have hfull : (sentChunk fragmenter).length = capacityAt fragmenter.offset := by omega
    rw [hfull, Nat.sub_self, List.replicate_zero, List.append_nil] at hpayloads
    have hends : ¬ (sentFrame fragmenter).Ends := by
      rw [sent_ends, hpacket]
      exact hlast
    have hcount : group.length < 63 := by
      rcases hcapacity with ⟨-, rfl, -⟩ | ⟨-, -, hoffset⟩
      · decide
      · omega
    refine ⟨hpacket, hid, ?_, ?_, ?_, Or.inr ⟨⟨hnumbered, ?_, ?_⟩, ?_⟩⟩
    · simp only [afterSend]
      rw [UInt8.toNat_add, hindex, List.length_append]
      exact Nat.mod_eq_of_lt (by show group.length + 1 < 256; omega)
    · simp only [afterSend]
      omega
    · rw [hpayloads, ← hfull]
      rfl
    · intro other hmem
      rcases List.mem_append.mp hmem with hmem | hmem
      · exact hbefore.1 other hmem
      · rwa [List.mem_singleton.mp hmem]
    · rw [hpayloads, List.length_take]
      omega
    · simp only [afterSend, List.length_append, List.length_singleton]
      rcases hcapacity with ⟨h5, rfl, h0⟩ | ⟨h7, -, hoffset⟩
      · rw [hfull, h5, h0]
        rfl
      · omega

/-- The frames that are left: the last of them ends the packet. -/
theorem Sending.rest (h : Sending fragmenter packet can_id group)
    (hleast : 20 ≤ packet.length) (hfits : packet.length ≤ 148) :
    ∃ more last, (fragments fragmenter).1 = more ++ [last] ∧
      PacketGroup packet.length (group ++ more) last ∧
      (payloads (group ++ more ++ [last])).take packet.length = packet ∧
      (packet.length + 1) / 7 = (group ++ more).length ∧
      (∀ frame ∈ (fragments fragmenter).1, Relevant can_id frame) ∧
      update_can_fragmenter_next (fragments fragmenter).2 = none := by
  induction hmeasure : packet.length - fragmenter.offset using Nat.strong_induction_on generalizing
    fragmenter group with
  | _ measure ih =>
    have hleft : fragmenter.offset < fragmenter.packet.length := by
      rw [h.packet_eq]
      exact h.left
    have hrelevant : Relevant can_id (sentFrame fragmenter) := by
      rw [← h.can_id_eq]
      exact sent_relevant
    rw [fragments_next hleft]
    rcases h.next hleast hfits with ⟨hgroup, hbytes, hoffset, hcount⟩ | hnext
    · have hend : (afterSend fragmenter).packet.length ≤ (afterSend fragmenter).offset := by
        rw [hoffset, ← h.packet_eq]
        rfl
      rw [fragments_done hend]
      refine ⟨[], sentFrame fragmenter, rfl, by simpa using hgroup, by simpa using hbytes,
        by simpa using hcount, ?_, next_done hend⟩
      intro frame hframe
      rwa [List.mem_singleton.mp hframe]
    · have hadvance := next_advances (next_eq hleft)
      rw [h.packet_eq, hnext.packet_eq] at hadvance
      obtain ⟨more, last, hall, hgroup, hbytes, hcount, hrest, hend⟩ :=
        ih _ (by rwa [← hmeasure]) hnext rfl
      refine ⟨sentFrame fragmenter :: more, last, by rw [hall]; rfl, by simpa using hgroup,
        by simpa using hbytes, by simpa using hcount, ?_, hend⟩
      intro frame hframe
      rcases List.mem_cons.mp hframe with rfl | hframe
      · exact hrelevant
      · exact hrest frame hframe

end

/-! ## On a bus with other nodes -/

/-- What the reassembly returns for the frames with its own id. -/
def ownResults (can_id : UInt32) :
    UpdateCanReassembly → List CanFrame → List UpdateCanReassemblyResult
  | _, [] => []
  | reassembly, frame :: frames =>
    let out := update_can_reassembly_feed reassembly frame can_id
    if frame.id = can_id then out.1.result :: ownResults can_id out.2 frames
    else ownResults can_id out.2 frames

section
variable {can_id : UInt32} {reassembly : UpdateCanReassembly} {frame : CanFrame}
  {frames : List CanFrame}

theorem ownResults_foreign (h : frame.id ≠ can_id) :
    ownResults can_id reassembly (frame :: frames) = ownResults can_id reassembly frames := by
  have hsame := (feed_irrelevant reassembly fun hrelevant => h hrelevant.1).2.2
  rw [ownResults, if_neg h, hsame]

theorem ownResults_own (h : frame.id = can_id) :
    ownResults can_id reassembly (frame :: frames) =
      (update_can_reassembly_feed reassembly frame can_id).1.result ::
        ownResults can_id (update_can_reassembly_feed reassembly frame can_id).2 frames :=
  if_pos h

theorem ownResults_none (h : (frames.filter fun frame => frame.id = can_id) = []) :
    ownResults can_id reassembly frames = [] := by
  induction frames with
  | nil => rfl
  | cons frame frames ih =>
    have hforeign : frame.id ≠ can_id := by
      simpa using List.filter_eq_nil_iff.mp h frame (List.mem_cons_self ..)
    rw [ownResults_foreign hforeign]
    exact ih (by simpa [hforeign] using h)

/-- The first frames of a numbered group are numbered. -/
theorem numbered_left {len : Nat} {group more : List CanFrame}
    (h : Numbered len (group ++ more)) (hne : group ≠ []) : Numbered len group := by
  induction more using List.reverseRecOn with
  | nil => simpa using h
  | append_singleton more last ih =>
    rw [← List.append_assoc] at h
    rcases h.inv with ⟨hnil, -⟩ | ⟨hbefore, -, -⟩
    · exact absurd (List.append_eq_nil_iff.mp hnil).1 hne
    · exact ih hbefore

/-- The frames of a packet, whatever comes between them, give nothing before the last. -/
theorem ownResults_group {len : Nat} {group rest : List CanFrame} {last : CanFrame}
    (hgroup : PacketGroup len (group ++ rest) last)
    (hheld : group = [] ∨ Holding reassembly len group)
    (hown : (frames.filter fun frame => frame.id = can_id) = rest ++ [last])
    (hrelevant : ∀ frame ∈ rest ++ [last], Relevant can_id frame) :
    ownResults can_id reassembly frames = List.replicate rest.length .None ++
      [.Complete ((payloads (group ++ rest ++ [last])).take len)] := by
  induction frames generalizing reassembly group rest with
  | nil => simp at hown
  | cons frame frames ih =>
    by_cases hid : frame.id = can_id
    · rw [ownResults_own hid]
      cases rest with
      | nil =>
        simp only [hid, decide_true, List.filter_cons_of_pos, List.nil_append,
          List.cons.injEq] at hown
        obtain ⟨rfl, hnone⟩ := hown
        rw [List.append_nil] at hgroup
        rw [ownResults_none hnone, feed_packet (hrelevant frame (by simp)) hgroup hheld]
        simp
      | cons next rest =>
        simp only [hid, decide_true, List.filter_cons_of_pos, List.cons_append,
          List.cons.injEq] at hown
        obtain ⟨rfl, hown⟩ := hown
        have hassoc : group ++ frame :: rest = group ++ [frame] ++ rest := by simp
        rw [hassoc] at hgroup
        have hopen : OpenGroup len (group ++ [frame]) := by
          refine ⟨?_, ?_, ?_⟩
          · have hnumbered := hgroup.numbered
            rw [List.append_assoc] at hnumbered
            exact numbered_left hnumbered (by simp)
          · exact fun other hmem => hgroup.no_end other (List.mem_append_left _ hmem)
          · have hshort := hgroup.short
            unfold payloads at *
            rw [List.flatMap_append, List.length_append] at hshort
            omega
        obtain ⟨hresult, hholding⟩ := feed_open (hrelevant frame (by simp)) hopen hheld
        rw [hresult, ih hgroup (Or.inr hholding) hown fun other hmem =>
          hrelevant other (List.mem_cons_of_mem _ hmem), hassoc]
        rfl
    · rw [ownResults_foreign hid]
      exact ih hgroup hheld (by simpa [hid] using hown) hrelevant

end

theorem numbered_index {len : Nat} {group : List CanFrame} (h : Numbered len group) {k : Nat}
    (hk : k < group.length) : group[k].index.toNat = k := by
  induction h with
  | first frame opening =>
    obtain rfl : k = 0 := by simpa using hk
    exact congrArg UInt8.toNat opening.index
  | next group frame numbered not_start index ih =>
    by_cases hlt : k < group.length
    · rw [List.getElem_append_left hlt]
      exact ih hlt
    · rw [List.length_append, List.length_singleton] at hk
      obtain rfl : k = group.length := by omega
      rw [List.getElem_append_right (Nat.le_refl _)]
      simpa using index

theorem init_ok {packet : List UInt8} (hleast : 20 ≤ packet.length)
    (hfits : packet.length ≤ 148) {can_id : UInt32} (hid : can_id ≤ 0x7FF) :
    update_can_fragmenter_init can_id packet =
      some { packet, offset := 0, can_id, fragment_index := 0 } := by
  apply if_neg
  rintro (hshort | hlong | hlarge)
  · exact absurd hleast (Nat.not_le.mpr hshort)
  · exact absurd hfits (Nat.not_le.mpr hlong)
  · exact absurd hid (UInt32.not_le.mpr hlarge)

/-- A packet of 20 to 148 bytes comes through, from any state of the reassembly
and with any frames with other ids in between. Its frames are numbered from 0. -/
theorem transport_round_trip {packet : List UInt8} (hleast : 20 ≤ packet.length)
    (hfits : packet.length ≤ 148) {can_id : UInt32} (hid : can_id ≤ 0x7FF) :
    ∃ fragmenter, update_can_fragmenter_init can_id packet = some fragmenter ∧
      let sent := (fragments fragmenter).1
      sent.length = 1 + (packet.length - 5) ⌈/⌉ 7 ∧
        update_can_fragmenter_next (fragments fragmenter).2 = none ∧
        (∀ (k : Nat) (hk : k < sent.length), sent[k].index.toNat = k) ∧
        ∀ (reassembly : UpdateCanReassembly) (frames : List CanFrame),
          (frames.filter fun frame => frame.id = can_id) = sent →
          ownResults can_id reassembly frames =
            List.replicate (sent.length - 1) .None ++ [.Complete packet] := by
  have hinit := init_ok hleast hfits hid
  have hstart : Sending { packet, offset := 0, can_id, fragment_index := 0 } packet can_id [] :=
    ⟨rfl, rfl, rfl, by show 0 < packet.length; omega, rfl, Or.inl ⟨rfl, rfl⟩⟩
  obtain ⟨more, last, hall, hgroup, hbytes, hcount, hrelevant, hend⟩ := hstart.rest hleast hfits
  rw [List.nil_append] at hgroup hbytes hcount
  refine ⟨_, hinit, ?_, hend, ?_, ?_⟩
  · rw [hall, Nat.ceilDiv_eq_add_pred_div, List.length_append, List.length_singleton, ← hcount]
    omega
  · intro k hk
    simp only [hall] at hk ⊢
    exact numbered_index hgroup.numbered hk
  · intro reassembly frames hown
    rw [hall] at hown hrelevant ⊢
    have hresults := @ownResults_group can_id reassembly frames packet.length [] more last hgroup
      (Or.inl rfl) hown hrelevant
    rw [List.nil_append, hbytes] at hresults
    rw [hresults]
    simp

/-- The shortest packet. -/
theorem transport_round_trip_zeros :
    ∃ fragmenter, update_can_fragmenter_init 0x601 (List.replicate 20 0) = some fragmenter ∧
      let sent := (fragments fragmenter).1
      sent.length = 1 + ((List.replicate 20 (0 : UInt8)).length - 5) ⌈/⌉ 7 ∧
        update_can_fragmenter_next (fragments fragmenter).2 = none ∧
        (∀ (k : Nat) (hk : k < sent.length), sent[k].index.toNat = k) ∧
        ∀ (reassembly : UpdateCanReassembly) (frames : List CanFrame),
          (frames.filter fun frame => frame.id = 0x601) = sent →
          ownResults 0x601 reassembly frames =
            List.replicate (sent.length - 1) .None ++ [.Complete (List.replicate 20 0)] :=
  transport_round_trip (by simp) (by simp) (by decide)

end stm32_vibe.can_transport
