-- Retransmission: copies of one packet, in a row, to a parser that may still wait
-- for the end of something else. Where the parser cuts the copies depends on the
-- headers that it finds inside them.
import Stm32Vibe.Lib.RepeatedWord
import Stm32Vibe.UpdateStream

namespace stm32_vibe.retransmission

open little_endian update_protocol update_stream repeated_word

/-! ## Headers -/

/-- The parser takes the bytes for a packet: a sync in front, and a length that fits. -/
def Header (bytes : List UInt8) : Prop :=
  sync_at bytes 0 ∧ (read_payload_len bytes).toNat ≤ UPDATE_PROTOCOL_MAX_PAYLOAD

instance (bytes : List UInt8) : Decidable (Header bytes) :=
  inferInstanceAs (Decidable (_ ∧ _))

theorem Header.fits {bytes : List UInt8} (h : Header bytes) :
    ¬ (read_payload_len bytes).toNat > 128 := Nat.not_lt.mpr h.2

theorem Header.packetLen_le {bytes : List UInt8} (h : Header bytes) : packetLen bytes ≤ 148 := by
  have hfits := h.fits
  unfold packetLen
  omega

theorem le_packetLen (bytes : List UInt8) : 20 ≤ packetLen bytes := Nat.le_add_right 20 _

theorem seek_of_sync {bytes : List UInt8} (h : sync_at bytes 0) : seek bytes = bytes := by
  obtain ⟨hlong, hlow, hhigh⟩ := h
  match bytes with
  | [] => rfl
  | [byte] => simp at hlong
  | byte :: next :: rest => simp_all [seek]

theorem seek_drop {bytes : List UInt8} (h : ¬ sync_at bytes 0) (hlong : 2 ≤ bytes.length) :
    seek bytes = seek (bytes.drop 1) := by
  match bytes with
  | [] => simp at hlong
  | [byte] => simp at hlong
  | byte :: next :: rest =>
    rw [seek, if_neg]
    · rfl
    · rintro ⟨hlow, hhigh⟩
      exact h ⟨by simp, hlow, hhigh⟩

/-- A complete packet in front gives its result. -/
theorem scan_header {bytes : List UInt8} (h : Header bytes)
    (hlong : packetLen bytes ≤ bytes.length) :
    scan bytes = (decodeResult (bytes.take (packetLen bytes)) ::
      (scan (bytes.drop (packetLen bytes))).1, (scan (bytes.drop (packetLen bytes))).2) := by
  have hpacket := le_packetLen bytes
  rw [scan_eq, seek_of_sync h.1, if_neg (by omega), if_neg h.fits,
    if_neg (by omega)]

/-- An incomplete one waits. -/
theorem scan_pending {bytes : List UInt8} (h : Header bytes)
    (hshort : bytes.length < packetLen bytes) : scan bytes = ([], bytes) := by
  rw [scan_eq, seek_of_sync h.1, if_neg h.fits, if_pos hshort, ite_self]

/-- Without a header in front, the first byte counts for nothing. -/
theorem scan_pass {bytes : List UInt8} (h : ¬ Header bytes) (hlong : 16 ≤ bytes.length) :
    scan bytes = scan (bytes.drop 1) := by
  by_cases hsync : sync_at bytes 0
  · have hoversize : (read_payload_len bytes).toNat > 128 :=
      Nat.lt_of_not_le fun hfits => h ⟨hsync, hfits⟩
    rw [scan_eq, seek_of_sync hsync, if_neg (by omega), if_pos hoversize]
  · exact scan_congr (seek_drop hsync (by omega))

/-- No packet is shorter than 20 bytes. -/
theorem scan_short {bytes : List UInt8} (h : bytes.length < 20) : (scan bytes).1 = [] := by
  induction hlength : bytes.length using Nat.strong_induction_on generalizing bytes with
  | _ length ih =>
    by_cases hheader : Header bytes
    · have hpacket := le_packetLen bytes
      rw [scan_pending hheader (by omega)]
    · by_cases hlong : 16 ≤ bytes.length
      · rw [scan_pass hheader hlong]
        exact ih _ (by rw [List.length_drop]; omega) (by rw [List.length_drop]; omega) rfl
      · have hseek := length_seek bytes
        rw [scan_eq, if_pos (by omega)]

/-- A header is in the first 8 bytes. -/
theorem header_append {bytes : List UInt8} (h : 8 ≤ bytes.length) (more : List UInt8) :
    Header (bytes ++ more) ↔ Header bytes := by
  have hlong : 0 + 1 < bytes.length := by omega
  have hmore : 0 + 1 < bytes.length + more.length := by omega
  unfold Header sync_at
  rw [read_payload_len_append h, List.getD_append _ _ _ _ (by omega),
    List.getD_append _ _ _ _ (by omega), List.length_append, and_iff_right hlong,
    and_iff_right hmore]

theorem packetLen_append {bytes : List UInt8} (h : 8 ≤ bytes.length) (more : List UInt8) :
    packetLen (bytes ++ more) = packetLen bytes := by
  unfold packetLen
  rw [read_payload_len_append h]

/-! ## The copies -/

section
variable (packet : UpdatePacket)

/-- The bytes of the copies from an offset on, as many as the longest packet has. -/
def ahead (offset : Nat) : List UInt8 :=
  stretch (encoded packet) offset UPDATE_PROTOCOL_MAX_PACKET_SIZE

/-- In the first `count` bytes of the copies, the frames that the parser cuts from
an offset on come to one that decodes to the packet. A frame is skipped whole, also
when it does not decode. -/
inductive Recovers (count : Nat) : Nat → Prop where
  | found {offset : Nat} (header : Header (ahead packet offset))
      (fits : offset + packetLen (ahead packet offset) ≤ count)
      (decodes : decodeResult ((ahead packet offset).take (packetLen (ahead packet offset))) =
        .ok packet) : Recovers count offset
  | frame {offset : Nat} (header : Header (ahead packet offset))
      (rest : Recovers count (offset + packetLen (ahead packet offset))) : Recovers count offset
  | pass {offset : Nat} (header : ¬ Header (ahead packet offset))
      (rest : Recovers count (offset + 1)) : Recovers count offset

/-- The start of a frame that the copies complete. -/
structure Stale (bytes : List UInt8) : Prop where
  started : 0 < bytes.length
  header : Header (bytes ++ ahead packet 0)
  pending : bytes.length < packetLen (bytes ++ ahead packet 0)

/-- Where in the copies such a frame ends. -/
def staleEnd (bytes : List UInt8) : Nat := packetLen (bytes ++ ahead packet 0) - bytes.length

/-- The frame itself decodes to the packet, or the frames after it come to one. -/
def Passes (count : Nat) (bytes : List UInt8) : Prop :=
  staleEnd packet bytes ≤ count ∧
      decodeResult ((bytes ++ ahead packet 0).take (packetLen (bytes ++ ahead packet 0))) =
        .ok packet ∨
    Recovers packet count (staleEnd packet bytes)

/-- The part of the waiting bytes that starts such a frame. The bytes before it are
dropped when those of the copies complete a header with a length that does not fit. -/
def staleFrame : List UInt8 → List UInt8
  | [] => []
  | byte :: rest =>
    if Header (byte :: rest ++ ahead packet 0) then byte :: rest else staleFrame rest

variable {packet}

/-- The first 8 bytes decide, and they may start before the copies. -/
theorem header_stretch (before : List UInt8) (offset : Nat) {count : Nat} (h : 8 ≤ count) :
    (Header (before ++ stretch (encoded packet) offset count) ↔
      Header (before ++ ahead packet offset)) ∧
    packetLen (before ++ stretch (encoded packet) offset count) =
      packetLen (before ++ ahead packet offset) := by
  have hlong : 8 ≤ (before ++ stretch (encoded packet) offset 8).length := by
    simp
  have hsplit : ∀ more, before ++ stretch (encoded packet) offset (8 + more) =
      before ++ stretch (encoded packet) offset 8 ++
        stretch (encoded packet) (offset + 8) more := by
    intro more
    rw [List.append_assoc, stretch_append]
  have hahead : before ++ ahead packet offset = before ++ stretch (encoded packet) offset 8 ++
      stretch (encoded packet) (offset + 8) 140 := hsplit 140
  obtain ⟨more, rfl⟩ := Nat.exists_eq_add_of_le h
  rw [hsplit, hahead, header_append hlong, header_append hlong, packetLen_append hlong,
    packetLen_append hlong]
  exact ⟨Iff.rfl, rfl⟩

theorem take_ahead (offset : Nat) {size count : Nat} (hcount : size ≤ count) (hsize : size ≤ 148) :
    (stretch (encoded packet) offset count).take size = (ahead packet offset).take size := by
  have hmax : size ≤ UPDATE_PROTOCOL_MAX_PACKET_SIZE := hsize
  rw [ahead, take_stretch, take_stretch, Nat.min_eq_left hcount, Nat.min_eq_left hmax]

theorem Recovers.le {count offset : Nat} (h : Recovers packet count offset) :
    offset + 20 ≤ count := by
  induction h with
  | @found offset header fits decodes =>
    have hpacket := le_packetLen (ahead packet offset)
    omega
  | frame header rest ih => omega
  | pass header rest ih => omega

theorem recovers_header {count offset : Nat} (h : Header (ahead packet offset)) :
    Recovers packet count offset ↔
      offset + packetLen (ahead packet offset) ≤ count ∧
          decodeResult ((ahead packet offset).take (packetLen (ahead packet offset))) =
            .ok packet ∨
        Recovers packet count (offset + packetLen (ahead packet offset)) := by
  constructor
  · intro hrecovers
    cases hrecovers with
    | found header fits decodes => exact Or.inl ⟨fits, decodes⟩
    | frame header rest => exact Or.inr rest
    | pass header rest => exact absurd h header
  · rintro (⟨hfits, hdecodes⟩ | hrest)
    · exact .found h hfits hdecodes
    · exact .frame h hrest

theorem recovers_pass {count offset : Nat} (h : ¬ Header (ahead packet offset)) :
    Recovers packet count offset ↔ Recovers packet count (offset + 1) := by
  constructor
  · intro hrecovers
    cases hrecovers with
    | found header fits decodes => exact absurd header h
    | frame header rest => exact absurd header h
    | pass header rest => exact rest
  · exact .pass h

/-- A stretch of the copies gives the packet exactly if the frames come to it. -/
theorem mem_scan_stretch (offset count : Nat) :
    .ok packet ∈ (scan (stretch (encoded packet) offset count)).1 ↔
      Recovers packet (offset + count) offset := by
  induction count using Nat.strong_induction_on generalizing offset with
  | _ count ih =>
    by_cases hshort : count < 20
    · rw [scan_short (by simpa using hshort)]
      refine iff_of_false List.not_mem_nil ?_
      intro h
      have hle := h.le
      omega
    obtain ⟨hheader, hpacket⟩ := @header_stretch packet [] offset count (by omega)
    simp only [List.nil_append] at hheader hpacket
    by_cases h : Header (ahead packet offset)
    · rw [recovers_header h]
      by_cases hfits : packetLen (ahead packet offset) ≤ count
      · have hpos := le_packetLen (ahead packet offset)
        have hrest := ih (count - packetLen (ahead packet offset)) (by omega)
          (offset + packetLen (ahead packet offset))
        have hcount : offset + packetLen (ahead packet offset) +
            (count - packetLen (ahead packet offset)) = offset + count := by
          omega
        rw [hcount] at hrest
        rw [scan_header (hheader.mpr h) (by rw [hpacket, length_stretch]; exact hfits), hpacket,
          drop_stretch, take_ahead offset hfits h.packetLen_le, List.mem_cons, hrest, eq_comm,
          and_iff_right (by omega)]
      · -- the frame is cut off by the end of the copies
        rw [scan_pending (hheader.mpr h) (by rw [hpacket, length_stretch]; omega)]
        refine iff_of_false List.not_mem_nil ?_
        rintro (⟨hle, -⟩ | hrecovers)
        · omega
        · have hle := hrecovers.le
          omega
    · have hrest := ih (count - 1) (by omega) (offset + 1)
      have hcount : offset + 1 + (count - 1) = offset + count := by omega
      rw [hcount] at hrest
      rw [recovers_pass h, scan_pass (mt hheader.mp h) (by rw [length_stretch]; omega),
        drop_stretch, hrest]

/-! ## One copy -/

theorem ahead_mod (offset : Nat) :
    ahead packet (offset % (encoded packet).length) = ahead packet offset := stretch_mod _ _ _

/-- The copies start with a packet. -/
theorem ahead_zero (hfits : packet.payload_len.toNat ≤ 128) :
    Header (ahead packet 0) ∧ packetLen (ahead packet 0) = (encoded packet).length ∧
      (ahead packet 0).take (encoded packet).length = encoded packet := by
  have hlength := length_encoded packet
  have hmax : (encoded packet).length ≤ 148 := by omega
  have hlen : read_payload_len (encoded packet) = packet.payload_len := read_message_len packet _
  have hheader : Header (encoded packet) := by
    refine ⟨⟨by omega, rfl, rfl⟩, ?_⟩
    rw [hlen]
    exact hfits
  have hsplit := stretch_append (encoded packet) 0 (encoded packet).length
    (148 - (encoded packet).length)
  rw [stretch_word, Nat.add_sub_cancel' hmax] at hsplit
  have hahead : ahead packet 0 = encoded packet ++ stretch (encoded packet)
      (0 + (encoded packet).length) (148 - (encoded packet).length) := hsplit.symm
  refine ⟨?_, ?_, ?_⟩
  · rw [hahead, header_append (by omega)]
    exact hheader
  · rw [hahead, packetLen_append (by omega), packetLen, hlen, hlength]
  · rw [hahead, List.take_left]

theorem decodeResult_encoded (hfits : packet.payload_len.toNat ≤ 128) :
    decodeResult (encoded packet) = .ok packet := by
  have haccepts := encoded_accepts hfits
  have hroom : (read_u16_le (encoded packet) 6).toNat ≤ UPDATE_PROTOCOL_MAX_PAYLOAD :=
    haccepts.fits
  have hdecoded : decoded (encoded packet) = packet := decoded_message packet _
  unfold decodeResult
  rw [decode_accepted haccepts _ _ hroom]
  simp [hdecoded]

theorem decodeResult_accepts {input : List UInt8} {packet : UpdatePacket}
    (h : decodeResult input = .ok packet) : Accepts input := by
  unfold decodeResult at h
  dsimp only at h
  split_ifs at h with hok
  exact ((decode_ok_iff _ _ _ _).mp hok).1

/-- Where a copy starts, it is found. -/
theorem recovers_copy (hfits : packet.payload_len.toNat ≤ 128) {count offset : Nat}
    (hoffset : offset % (encoded packet).length = 0)
    (hcount : offset + (encoded packet).length ≤ count) : Recovers packet count offset := by
  obtain ⟨hheader, hpacket, htake⟩ := ahead_zero hfits
  have hahead := @ahead_mod packet offset
  rw [hoffset] at hahead
  refine .found ?_ ?_ ?_
  · rwa [← hahead]
  · rwa [← hahead, hpacket]
  · rw [← hahead, hpacket, htake, decodeResult_encoded hfits]

/-- When every frame from an offset on ends in its copy, the parser comes to the next copy. -/
theorem recovers_next (hfits : packet.payload_len.toNat ≤ 128) {count offset : Nat}
    (hends : ∀ place < (encoded packet).length, 0 < place →
      offset % (encoded packet).length ≤ place → Header (ahead packet place) →
        place + packetLen (ahead packet place) ≤ (encoded packet).length)
    (hcount : offset + 2 * (encoded packet).length ≤ count) : Recovers packet count offset := by
  have hlength := length_encoded packet
  generalize hsize : (encoded packet).length = size at hends hcount hlength
  have hcopy : ∀ copies, size * copies + size ≤ count → Recovers packet count (size * copies) := by
    intro copies hle
    refine recovers_copy hfits ?_ (by rw [hsize]; exact hle)
    rw [hsize, Nat.mul_mod_right]
  -- by the bytes that are left of the copy
  have hwalk : ∀ left place copies, place + left = size → offset % size ≤ place →
      size * copies + 2 * size ≤ count → Recovers packet count (size * copies + place) := by
    intro left
    induction left using Nat.strong_induction_on with
    | _ left ih =>
      intro place copies hplace hfrom hle
      by_cases hend : left = 0
      · have hnext := hcopy (copies + 1) (by rw [Nat.mul_add_one]; omega)
        rw [Nat.mul_add_one] at hnext
        rwa [show place = size by omega]
      by_cases hstart : place = 0
      · rw [hstart]
        exact hcopy copies (by omega)
      have hahead : ahead packet (size * copies + place) = ahead packet place := by
        rw [← ahead_mod, hsize, Nat.mul_add_mod, ← hsize, ahead_mod]
      by_cases hheader : Header (ahead packet place)
      · have hpacket := le_packetLen (ahead packet place)
        have hinside := hends place (by omega) (Nat.pos_of_ne_zero hstart) hfrom hheader
        have hrest := ih (left - packetLen (ahead packet place)) (by omega)
          (place + packetLen (ahead packet place)) copies (by omega) (by omega) hle
        rw [← Nat.add_assoc] at hrest
        refine .frame (by rw [hahead]; exact hheader) ?_
        rw [hahead]
        exact hrest
      · have hrest := ih (left - 1) (by omega) (place + 1) copies (by omega) (by omega) hle
        rw [← Nat.add_assoc] at hrest
        exact .pass (by rw [hahead]; exact hheader) hrest
  have hmod := Nat.mod_lt offset (by omega : 0 < size)
  have hround := Nat.div_add_mod offset size
  have hoffset := hwalk (size - offset % size) (offset % size) (offset / size) (by omega)
    (Nat.le_refl _) (by omega)
  rwa [hround] at hoffset

/-- A frame inside a copy that ends before itself in a later copy, with no other frame
on the way back to it, holds the parser for ever. -/
theorem recovers_trapped {first inner : Nat} (hfirst : first ≤ inner)
    (hinner : inner < (encoded packet).length) (hheader : Header (ahead packet inner))
    (hnone : ∀ offset, first ≤ offset → offset < inner → ¬ Header (ahead packet offset))
    (hend : (inner + packetLen (ahead packet inner)) % (encoded packet).length = first)
    (hother : decodeResult ((ahead packet inner).take (packetLen (ahead packet inner))) ≠
      .ok packet) {count offset : Nat} (h : Recovers packet count offset) :
    ¬ (first ≤ offset % (encoded packet).length ∧ offset % (encoded packet).length ≤ inner) := by
  have hahead := fun offset => (@ahead_mod packet offset).symm
  have hat : ∀ offset, Header (ahead packet offset) → first ≤ offset % (encoded packet).length →
      offset % (encoded packet).length ≤ inner → offset % (encoded packet).length = inner := by
    intro offset header hlow hhigh
    rw [hahead] at header
    by_contra hne
    exact hnone _ hlow (by omega) header
  induction h with
  | @found offset header fits decodes =>
    rintro ⟨hlow, hhigh⟩
    rw [hahead, hat offset header hlow hhigh] at decodes
    exact hother decodes
  | @frame offset header rest ih =>
    rintro ⟨hlow, hhigh⟩
    rw [hahead offset, hat offset header hlow hhigh, Nat.add_mod, hat offset header hlow hhigh,
      ← Nat.add_mod_mod, Nat.mod_mod, Nat.add_mod_mod, hend] at ih
    exact ih ⟨Nat.le_refl first, hfirst⟩
  | @pass offset header rest ih =>
    rintro ⟨hlow, hhigh⟩
    have hne : offset % (encoded packet).length ≠ inner := by
      intro hsame
      rw [hahead, hsame] at header
      exact header hheader
    have hnext : (offset + 1) % (encoded packet).length = offset % (encoded packet).length + 1 := by
      rw [Nat.add_mod, Nat.mod_eq_of_lt (by omega : 1 < (encoded packet).length),
        Nat.mod_eq_of_lt (by omega)]
    rw [hnext] at ih
    exact ih ⟨by omega, by omega⟩

/-! ## What waits before the copies -/

/-- A frame that starts before the copies takes their first bytes with it. -/
theorem mem_scan_stale {stale : List UInt8} (h : Stale packet stale) {count : Nat}
    (hcount : 20 ≤ count) :
    .ok packet ∈ (scan (stale ++ stretch (encoded packet) 0 count)).1 ↔
      Passes packet count stale := by
  obtain ⟨hheader, hpacket⟩ := @header_stretch packet stale 0 count (by omega)
  have hpending := h.pending
  have hsmall := h.header.packetLen_le
  unfold Passes
  by_cases hfits : staleEnd packet stale ≤ count
  · have htake : (stale ++ stretch (encoded packet) 0 count).take
        (packetLen (stale ++ ahead packet 0)) =
          (stale ++ ahead packet 0).take (packetLen (stale ++ ahead packet 0)) := by
      rw [List.take_append, List.take_append]
      congr 1
      exact take_ahead 0 hfits (by omega)
    have hrest := @mem_scan_stretch packet (staleEnd packet stale) (count - staleEnd packet stale)
    have hdrop : (stale ++ stretch (encoded packet) 0 count).drop
        (packetLen (stale ++ ahead packet 0)) =
          stretch (encoded packet) (staleEnd packet stale) (count - staleEnd packet stale) := by
      rw [List.drop_append, List.drop_of_length_le (by omega), drop_stretch, Nat.zero_add]
      rfl
    rw [Nat.add_sub_cancel' hfits] at hrest
    rw [scan_header (hheader.mpr h.header) ?_, hpacket, htake, hdrop, List.mem_cons, hrest,
      eq_comm, and_iff_right hfits]
    rw [hpacket, List.length_append, length_stretch]
    unfold staleEnd at hfits
    omega
  · rw [scan_pending (hheader.mpr h.header) ?_]
    · refine iff_of_false List.not_mem_nil ?_
      rintro (⟨hle, -⟩ | hrecovers)
      · exact hfits hle
      · have hle := hrecovers.le
        omega
    · rw [hpacket, List.length_append, length_stretch]
      unfold staleEnd at hfits
      omega

theorem ahead_first : (ahead packet 0).getD 0 0 = UPDATE_PROTOCOL_SYNC.toUInt8 := by
  have hpos : 0 < (ahead packet 0).length := by
    rw [ahead, length_stretch]
    decide
  have hmod := Nat.zero_mod (encoded packet).length
  rw [List.getD_eq_getElem _ _ hpos]
  simp only [ahead, getElem_stretch, Nat.add_zero, hmod]
  rfl

/-- The start of such a frame is what a parser can wait with. -/
theorem Stale.waiting {stale : List UInt8} (h : Stale packet stale) : Waiting stale := by
  have hsync := h.header.1
  have hpending := h.pending
  by_cases hlong : 8 ≤ stale.length
  · rw [packetLen_append hlong] at hpending
    exact scan_pending ((header_append hlong _).mp h.header) hpending
  · have hseek : seek stale = stale := by
      match stale with
      | [] => rfl
      | [byte] =>
        have hhigh : (ahead packet 0).getD 0 0 = (UPDATE_PROTOCOL_SYNC >>> 8).toUInt8 := hsync.2.2
        rw [ahead_first] at hhigh
        exact absurd hhigh (by decide)
      | byte :: next :: rest => exact seek_of_sync ⟨by simp, hsync.2.1, hsync.2.2⟩
    unfold Waiting
    rw [scan_eq, hseek, if_pos (by omega)]

/-- What waits is such a start, or it is shorter than a header. -/
theorem stale_or_short {before : List UInt8} (h : Waiting before) :
    Stale packet before ∨ before.length < 16 := by
  by_cases hlong : 16 ≤ before.length
  · obtain ⟨hfits, hshort⟩ := h.spec.2 hlong
    have hheader : Header before := by
      by_contra hnone
      have hpass := scan_pass hnone hlong
      have hlength := length_scan (before.drop 1)
      have hwaiting : scan before = ([], before) := h
      rw [← hpass, hwaiting, List.length_drop] at hlength
      dsimp only at hlength
      omega
    refine Or.inl ⟨by omega, (header_append (by omega) _).mpr hheader, ?_⟩
    rwa [packetLen_append (by omega)]
  · exact Or.inr (by omega)

theorem staleFrame_of_stale {stale : List UInt8} (h : Stale packet stale) :
    staleFrame packet stale = stale := by
  match stale with
  | [] => rfl
  | byte :: rest =>
    have hheader := h.header
    rw [staleFrame, if_pos hheader]

/-- The scanner drops what stands before the stale frame. -/
theorem scan_staleFrame {before : List UInt8} (h : Waiting before) :
    (staleFrame packet before = [] ∨ Stale packet (staleFrame packet before)) ∧
      ∀ count ≥ 20, scan (before ++ stretch (encoded packet) 0 count) =
        scan (staleFrame packet before ++ stretch (encoded packet) 0 count) := by
  rcases @stale_or_short packet before h with hstale | hshort
  · rw [staleFrame_of_stale hstale]
    exact ⟨Or.inr hstale, fun _ _ => rfl⟩
  clear h
  induction before with
  | nil => exact ⟨Or.inl rfl, fun _ _ => rfl⟩
  | cons byte rest ih =>
    rw [List.length_cons] at hshort
    rw [staleFrame]
    by_cases hheader : Header (byte :: rest ++ ahead packet 0)
    · have hpacket := le_packetLen (byte :: rest ++ ahead packet 0)
      rw [if_pos hheader]
      refine ⟨Or.inr ⟨by simp, hheader, ?_⟩, fun _ _ => rfl⟩
      rw [List.length_cons]
      omega
    · obtain ⟨hcases, hscan⟩ := ih (by omega)
      rw [if_neg hheader]
      refine ⟨hcases, ?_⟩
      intro count hcount
      have hnone := mt (@header_stretch packet (byte :: rest) 0 count (by omega)).1.mp hheader
      rw [scan_pass hnone (by rw [List.length_append, length_stretch]; omega), ← hscan count hcount]
      rfl

/-- From any waiting bytes, the packet is found exactly if nothing of them is stale
or the stale frame passes. -/
theorem mem_scan_before (hfits : packet.payload_len.toNat ≤ 128) {before : List UInt8}
    (h : Waiting before) {count : Nat} (hcount : (encoded packet).length ≤ count) :
    .ok packet ∈ (scan (before ++ stretch (encoded packet) 0 count)).1 ↔
      staleFrame packet before = [] ∨ Passes packet count (staleFrame packet before) := by
  have hlength := length_encoded packet
  obtain ⟨hcases, hscan⟩ := @scan_staleFrame packet before h
  rw [hscan count (by omega)]
  rcases hcases with hnil | hstale
  · rw [hnil, List.nil_append, mem_scan_stretch, Nat.zero_add]
    exact iff_of_true (recovers_copy hfits (Nat.zero_mod _) (by omega)) (Or.inl rfl)
  · have hstarted := List.ne_nil_of_length_pos hstale.started
    rw [mem_scan_stale hstale (by omega)]
    exact (or_iff_right hstarted).symm

end

/-! ## The parser -/

/-- Any chunks give what the scanner finds in the waiting bytes and the chunks. -/
theorem feedChunks_results {stream : UpdateStream} (h : Waiting stream.buffer)
    (packet : UpdatePacket) (payload : Memory) (chunks : List (List UInt8)) :
    (feedChunks { results := [], stream, packet, payload } chunks).results =
      (scan (stream.buffer ++ chunks.flatten)).1 := by
  have hreads : Reads { results := [], stream, packet, payload } stream.buffer := h
  exact (congrArg Prod.fst (hreads.chunks chunks)).symm

/-- A parser can wait with whatever the scanner waits with. -/
theorem feed_waiting {bytes : List UInt8} (h : Waiting bytes) (packet : UpdatePacket)
    (payload : Memory) :
    (update_stream_feed update_stream_init bytes packet payload
      UPDATE_PROTOCOL_MAX_PAYLOAD).stream = ⟨bytes⟩ := by
  have hinit : Waiting update_stream_init.buffer := waiting_nil
  rcases (feed_spec hinit bytes packet payload).outcome with
    ⟨-, -, hscan⟩ | ⟨-, k, -, -, -, hscan⟩
  · have hbuffer := hscan.symm.trans h
    exact congrArg UpdateStream.mk (congrArg Prod.snd hbuffer)
  · have hsplit := scan_append (bytes.take k) (bytes.drop k)
    have hnone : scan bytes = ([], bytes) := h
    have hresult : scan (bytes.take k) = _ := hscan
    rw [List.take_append_drop, hnone, hresult] at hsplit
    exact absurd (congrArg Prod.fst hsplit) (by simp)

/-- From a state of the parser, `count` copies in any chunks give the packet. -/
def GetsThrough (packet : UpdatePacket) (bytes : List UInt8) (count : Nat)
    (stream : UpdateStream) : Prop :=
  ∀ (out : UpdatePacket) (payload : Memory) (chunks : List (List UInt8)),
    chunks.flatten = (List.replicate count bytes).flatten →
      .ok packet ∈ (feedChunks { results := [], stream, packet := out, payload } chunks).results

/-- Exactly: there is no stale frame, or it is the packet itself, or the frames from
its end on come to one that is. -/
theorem getsThrough_iff {packet : UpdatePacket} (hfits : packet.payload_len.toNat ≤ 128)
    {stream : UpdateStream} (hstream : StreamReachable stream) {count : Nat} (hcount : 0 < count) :
    GetsThrough packet (encoded packet) count stream ↔
      staleFrame packet stream.buffer = [] ∨
        Passes packet (count * (encoded packet).length) (staleFrame packet stream.buffer) := by
  have hwaiting := reachable_waiting hstream
  have hscan := @mem_scan_before packet hfits _ hwaiting (count * (encoded packet).length)
    (Nat.le_mul_of_pos_left _ hcount)
  rw [← flatten_replicate] at hscan
  rw [← hscan]
  constructor
  · intro h
    have hall := h emptyPacket (fun _ => 0) [(List.replicate count (encoded packet)).flatten]
      List.flatten_singleton
    rwa [feedChunks_results hwaiting, List.flatten_singleton] at hall
  · intro h out payload chunks hchunks
    rwa [feedChunks_results hwaiting, hchunks]

/-! ## What the bytes alone tell -/

/-- The first byte of the buffer that starts a frame, completed by the first bytes of a copy. -/
structure StaleFrame (buffer bytes : List UInt8) (start : Nat) : Prop where
  inside : start < buffer.length
  header : Header (buffer.drop start ++ bytes)
  first : ∀ earlier < start, ¬ Header (buffer.drop earlier ++ bytes)

/-- Where in a copy that frame ends, by the length that it declares. -/
def frameEnd (buffer bytes : List UInt8) (start : Nat) : Nat :=
  (packetLen (buffer.drop start ++ bytes) - (buffer.length - start)) % bytes.length

/-- Every frame that is declared in a copy from `place` on, but for the copy itself,
ends in that copy. -/
def FramesEnd (bytes : List UInt8) (place : Nat) : Prop :=
  ∀ offset < bytes.length, 0 < offset → place ≤ offset →
    Header ((bytes ++ bytes).drop offset) →
      offset + packetLen ((bytes ++ bytes).drop offset) ≤ bytes.length

section
variable {packet : UpdatePacket}

/-- Behind bytes that may start before a copy, the copy shows the same header as a row of copies. -/
theorem header_encoded (before : List UInt8) :
    (Header (before ++ encoded packet) ↔ Header (before ++ ahead packet 0)) ∧
      packetLen (before ++ encoded packet) = packetLen (before ++ ahead packet 0) := by
  have hlength := length_encoded packet
  have hstretch := @header_stretch packet before 0 (encoded packet).length (by omega)
  rwa [stretch_word] at hstretch

/-- A header inside a copy is read in this copy and the next. -/
theorem header_twice {offset : Nat} (h : offset < (encoded packet).length) :
    (Header ((encoded packet ++ encoded packet).drop offset) ↔ Header (ahead packet offset)) ∧
      packetLen ((encoded packet ++ encoded packet).drop offset) =
        packetLen (ahead packet offset) := by
  have hlength := length_encoded packet
  have htwice := flatten_replicate (encoded packet) 2
  simp only [List.replicate_succ, List.replicate_zero, List.flatten_cons, List.flatten_nil,
    List.append_nil] at htwice
  rw [htwice, drop_stretch, Nat.zero_add]
  exact @header_stretch packet [] offset (2 * (encoded packet).length - offset) (by omega)

theorem staleFrame_eq (buffer : List UInt8) :
    staleFrame packet buffer = [] ∨
      ∃ start, StaleFrame buffer (encoded packet) start ∧
        staleFrame packet buffer = buffer.drop start := by
  induction buffer with
  | nil => exact Or.inl rfl
  | cons byte rest ih =>
    have hheader := (@header_encoded packet (byte :: rest)).1
    rw [staleFrame]
    by_cases h : Header (byte :: rest ++ ahead packet 0)
    · rw [if_pos h]
      exact Or.inr ⟨0, ⟨Nat.zero_lt_succ _, hheader.mpr h, nofun⟩, rfl⟩
    · rw [if_neg h]
      rcases ih with hnil | ⟨start, hstart, hdrop⟩
      · exact Or.inl hnil
      · refine Or.inr ⟨start + 1, ⟨Nat.succ_lt_succ hstart.inside, hstart.header, ?_⟩, hdrop⟩
        intro earlier hearlier
        cases earlier with
        | zero => exact mt hheader.mp h
        | succ earlier => exact hstart.first earlier (Nat.lt_of_succ_lt_succ hearlier)

/-- Where a stale frame ends in its copy, by the bytes alone. -/
theorem staleEnd_mod (buffer : List UInt8) (start : Nat) :
    staleEnd packet (buffer.drop start) % (encoded packet).length =
      frameEnd buffer (encoded packet) start := by
  unfold staleEnd frameEnd
  rw [(@header_encoded packet (buffer.drop start)).2, List.length_drop]

end

/-- DISCOVER of session 1. -/
def discoverPacket : UpdatePacket where
  command := UPDATE_CMD_DISCOVER
  flags := 0
  payload_len := 0
  session_id := 1
  sequence := 0
  payload := []
  length_payload := List.length_nil

theorem discover_ends (place : Nat) : FramesEnd (encoded discoverPacket) place := by
  intro offset hhigh hlow hfrom hheader
  have hlength : (encoded discoverPacket).length = 20 := length_encoded discoverPacket
  rw [hlength] at hhigh
  refine absurd hheader ?_
  interval_cases offset <;> decide +kernel

/-- BEGIN of `run_update` with the default session id, for an image of 64 KiB. -/
def defaultBegin : UpdatePacket where
  command := UPDATE_CMD_BEGIN
  flags := 0
  payload_len := 8
  session_id := 0x55445731
  sequence := 0
  payload := write_u32_le 0x10000 ++ write_u32_le 0
  length_payload := rfl

/-- The session id and the size of the image make a header inside each copy. -/
theorem begin_header {offset : Nat} (hlow : 2 ≤ offset) (hhigh : offset ≤ 10) :
    Header (ahead defaultBegin offset) ↔ offset = 10 := by
  have hheader := (@header_stretch defaultBegin [] offset 8 (Nat.le_refl 8)).1
  simp only [List.nil_append] at hheader
  rw [← hheader]
  interval_cases offset <;> decide

/-- It declares an empty payload, and the byte of the version is of the sequence number. -/
theorem begin_frame : packetLen (ahead defaultBegin 10) = 20 ∧
    ∀ packet, decodeResult ((ahead defaultBegin 10).take 20) ≠ .ok packet := by
  have hpacket := (@header_stretch defaultBegin [] 10 8 (Nat.le_refl 8)).2
  simp only [List.nil_append] at hpacket
  refine ⟨?_, ?_⟩
  · rw [← hpacket]
    decide
  · intro packet hdecodes
    have haccepts := decodeResult_accepts hdecodes
    have hversion := haccepts.version
    rw [← take_ahead 10 (Nat.le_refl 20) (by omega), take_stretch] at hversion
    exact absurd hversion (by decide)

/-- From the frames at offset 10, the parser comes to offset 2 of the next copy. -/
theorem begin_stuck {count offset : Nat} (h : Recovers defaultBegin count offset) :
    ¬ (2 ≤ offset % 28 ∧ offset % 28 ≤ 10) := by
  have hlength : (encoded defaultBegin).length = 28 := length_encoded defaultBegin
  have hheader : Header (ahead defaultBegin 10) :=
    (begin_header (by omega) (Nat.le_refl 10)).mpr rfl
  have htrapped := @recovers_trapped defaultBegin 2 10 (by omega) (by rw [hlength]; omega) hheader
    (fun offset hlow hhigh hinner =>
      absurd ((begin_header hlow (by omega)).mp hinner) (by omega))
    (by rw [begin_frame.1, hlength]) (by rw [begin_frame.1]; exact begin_frame.2 _) count offset h
  rwa [hlength] at htrapped

/-- The last 18 bytes of a copy, and the copies after it. -/
theorem begin_drop (count : Nat) :
    (encoded defaultBegin).drop 10 ++ stretch (encoded defaultBegin) 0 count =
      stretch (encoded defaultBegin) 10 (18 + count) := by
  have hlength : (encoded defaultBegin).length = 28 := length_encoded defaultBegin
  have hcopy := stretch_mul_length (encoded defaultBegin) 1 count
  rw [hlength] at hcopy
  rw [drop_word, hlength, ← hcopy]
  exact stretch_append _ 10 18 count

theorem begin_waiting : Waiting ((encoded defaultBegin).drop 10) := by
  have hlength : (encoded defaultBegin).length = 28 := length_encoded defaultBegin
  have hahead : (encoded defaultBegin).drop 10 ++ ahead defaultBegin 0 = _ := begin_drop 148
  obtain ⟨hheader, hpacket⟩ := @header_stretch defaultBegin [] 10 166 (by omega)
  simp only [List.nil_append] at hheader hpacket
  have hstale : Stale defaultBegin ((encoded defaultBegin).drop 10) := by
    refine ⟨?_, ?_, ?_⟩
    · rw [List.length_drop, hlength]
      omega
    · rw [hahead, hheader, begin_header (by omega) (by omega)]
    · rw [hahead, hpacket, begin_frame.1, List.length_drop, hlength]
      omega
  exact hstale.waiting

end stm32_vibe.retransmission
