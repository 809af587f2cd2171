-- The relocation once more, with its two buffers apart and a record of every
-- access: it stays inside the image and the buffers, and the base only shifts
-- what it stores.
import Stm32Vibe.BootRuntime

namespace stm32_vibe.relocation

open little_endian app_image boot_runtime

/-! ## The call with its accesses -/

/-- A word read from the image at an offset, or written to a buffer at an index. -/
inductive Access where
  | image (offset : Nat)
  | vectors (index : Nat)
  | got (index : Nat)
deriving DecidableEq, Repr

/-- The two buffers, and the accesses so far. -/
structure Buffers where
  vectors : Nat → UInt32
  got : Nat → UInt32
  accesses : List Access

/-- `stored[index]`, which is the word at an offset of the image. -/
def Buffers.readImage (buffers : Buffers) (offset : Nat) : Buffers :=
  { buffers with accesses := buffers.accesses ++ [.image offset] }

def Buffers.storeVector (buffers : Buffers) (index : Nat) (value : UInt32) : Buffers :=
  { buffers with
    vectors := Function.update buffers.vectors index value
    accesses := buffers.accesses ++ [.vectors index] }

def Buffers.storeGot (buffers : Buffers) (index : Nat) (value : UInt32) : Buffers :=
  { buffers with
    got := Function.update buffers.got index value
    accesses := buffers.accesses ++ [.got index] }

def vectorLoop (image : Image) (image_base image_size : UInt32) :
    Nat → Nat → Buffers → Bool × Buffers
  | 0, _, buffers => (true, buffers)
  | count + 1, index, buffers =>
    let handler := readWord image (4 * index)
    let buffers := buffers.readImage (4 * index)
    if handler = 0 ∨ handler = UNUSED_VECTOR then
      vectorLoop image image_base image_size count (index + 1) (buffers.storeVector index 0)
    else if handler &&& 1 = 0 ∨ handler &&& ~~~1 ≥ image_size then (false, buffers)
    else
      vectorLoop image image_base image_size count (index + 1)
        (buffers.storeVector index (image_base + handler))

def gotLoop (image : Image) (image_base image_size got_offset : UInt32) :
    Nat → Nat → Buffers → Buffers
  | 0, _, buffers => buffers
  | count + 1, index, buffers =>
    let value := readWord image (got_offset.toNat + 4 * index)
    let buffers := buffers.readImage (got_offset.toNat + 4 * index)
    gotLoop image image_base image_size got_offset count (index + 1)
      (buffers.storeGot index (if value < image_size then image_base + value else value))

/-- `boot_runtime_relocate` with two buffers of their own. -/
def relocate (image : Image) (image_base image_size vector_words got_offset got_size
    vector_capacity_words got_capacity_words : UInt32) (buffers : Buffers) : Bool × Buffers :=
  if ¬ RelocationBounds image_size vector_words got_offset got_size vector_capacity_words
      got_capacity_words then (false, buffers)
  else
    let buffers := (buffers.readImage 0).storeVector 0 (readWord image 0)
    let out := vectorLoop image image_base image_size (vector_words.toNat - 1) 1 buffers
    if out.1 then
      (true, gotLoop image image_base image_size got_offset (got_size / 4).toNat 0 out.2)
    else out

/-! ## The loop over the vectors -/

section
variable {image : Image} {image_base image_size : UInt32} {count index : Nat} {buffers : Buffers}

@[simp]
theorem readImage_vectors (offset : Nat) :
    (buffers.readImage offset).vectors = buffers.vectors := rfl

@[simp]
theorem readImage_got (offset : Nat) : (buffers.readImage offset).got = buffers.got := rfl

@[simp]
theorem storeVector_vectors (value : UInt32) :
    (buffers.storeVector index value).vectors = Function.update buffers.vectors index value := rfl

@[simp]
theorem storeVector_got (value : UInt32) :
    (buffers.storeVector index value).got = buffers.got := rfl

@[simp]
theorem storeGot_vectors (value : UInt32) :
    (buffers.storeGot index value).vectors = buffers.vectors := rfl

@[simp]
theorem storeGot_got (value : UInt32) :
    (buffers.storeGot index value).got = Function.update buffers.got index value := rfl

theorem vectorLoop_accepted (h : VectorAccepted image_size (readWord image (4 * index))) :
    vectorLoop image image_base image_size (count + 1) index buffers =
      vectorLoop image image_base image_size count (index + 1)
        ((buffers.readImage (4 * index)).storeVector index
          (relocated image_base (readWord image (4 * index)))) := by
  rw [vectorLoop]
  unfold relocated
  rcases h with unused | unused | ⟨odd, inside⟩
  · rw [if_pos (Or.inl unused), if_pos (Or.inl unused)]
  · rw [if_pos (Or.inr unused), if_pos (Or.inr unused)]
  · have hin : ¬ (readWord image (4 * index) &&& 1 = 0 ∨
        readWord image (4 * index) &&& ~~~1 ≥ image_size) := by
      rintro (h | h)
      · exact odd h
      · exact UInt32.not_le.mpr inside h
    split
    · rfl
    · rfl

theorem vectorLoop_bad (h : ¬ VectorAccepted image_size (readWord image (4 * index))) :
    vectorLoop image image_base image_size (count + 1) index buffers =
      (false, buffers.readImage (4 * index)) := by
  unfold VectorAccepted at h
  simp only [not_or, not_and, UInt32.not_lt] at h
  obtain ⟨not_zero, not_unused, outside⟩ := h
  have hbad : readWord image (4 * index) &&& 1 = 0 ∨
      readWord image (4 * index) &&& ~~~1 ≥ image_size := by
    by_cases odd : readWord image (4 * index) &&& 1 = 0
    · exact Or.inl odd
    · exact Or.inr (outside odd)
  rw [vectorLoop, if_neg (by rintro (h | h) <;> contradiction), if_pos hbad]

/-- An access of the loop over the vectors. -/
def VectorAccess (first last : Nat) : Access → Prop
  | .image offset => ∃ i, first ≤ i ∧ i < last ∧ offset = 4 * i
  | .vectors i => first ≤ i ∧ i < last
  | .got _ => False

theorem VectorAccess.mono {first last : Nat} {access : Access}
    (h : VectorAccess (first + 1) last access) : VectorAccess first last access := by
  cases access with
  | image offset =>
    obtain ⟨i, hle, hlt, heq⟩ := h
    exact ⟨i, by omega, hlt, heq⟩
  | vectors i => exact ⟨by have := h.1; omega, h.2⟩
  | got i => exact h

theorem vectorLoop_accesses (image_base : UInt32) :
    ∀ access ∈ (vectorLoop image image_base image_size count index buffers).2.accesses,
      access ∈ buffers.accesses ∨ VectorAccess index (index + count) access := by
  induction count generalizing index buffers with
  | zero => exact fun access mem => Or.inl mem
  | succ count ih =>
    intro access mem
    by_cases accepted : VectorAccepted image_size (readWord image (4 * index))
    · rw [vectorLoop_accepted accepted] at mem
      rcases ih access mem with before | inside
      · simp only [Buffers.storeVector, Buffers.readImage, List.append_assoc, List.mem_append,
          List.mem_cons, List.not_mem_nil, or_false] at before
        rcases before with before | rfl | rfl
        · exact Or.inl before
        · exact Or.inr ⟨index, Nat.le_refl _, by omega, rfl⟩
        · exact Or.inr ⟨Nat.le_refl _, by omega⟩
      · rw [show index + 1 + count = index + (count + 1) by omega] at inside
        exact Or.inr inside.mono
    · rw [vectorLoop_bad accepted] at mem
      simp only [Buffers.readImage, List.mem_append, List.mem_singleton] at mem
      rcases mem with before | rfl
      · exact Or.inl before
      · exact Or.inr ⟨index, Nat.le_refl _, by omega, rfl⟩

/-- The loop ends with 1 exactly when it accepts every vector. -/
theorem vectorLoop_ok (image_base : UInt32) (buffers : Buffers) :
    (vectorLoop image image_base image_size count index buffers).1 = true ↔
      ∀ k < count, VectorAccepted image_size (readWord image (4 * (index + k))) := by
  induction count generalizing index buffers with
  | zero => simp [vectorLoop]
  | succ count ih =>
    by_cases accepted : VectorAccepted image_size (readWord image (4 * index))
    · rw [vectorLoop_accepted accepted, ih]
      constructor
      · intro rest k hlt
        cases k with
        | zero => exact accepted
        | succ k =>
          have hk := rest k (by omega)
          rwa [show index + 1 + k = index + (k + 1) by omega] at hk
      · intro all k hlt
        have hk := all (k + 1) (by omega)
        rwa [show index + (k + 1) = index + 1 + k by omega] at hk
    · rw [vectorLoop_bad accepted]
      simp only [Bool.false_eq_true, false_iff, not_forall]
      exact ⟨0, by omega, accepted⟩

/-- The loop leaves the other vectors and the GOT alone. -/
theorem vectorLoop_frame (image_base : UInt32) (buffers : Buffers) :
    let out := vectorLoop image image_base image_size count index buffers
    (∀ i, i < index ∨ index + count ≤ i → out.2.vectors i = buffers.vectors i) ∧
      out.2.got = buffers.got := by
  induction count generalizing index buffers with
  | zero => exact ⟨fun i _ => rfl, rfl⟩
  | succ count ih =>
    by_cases accepted : VectorAccepted image_size (readWord image (4 * index))
    · rw [vectorLoop_accepted accepted]
      obtain ⟨hvectors, hgot⟩ := @ih (index + 1) ((buffers.readImage (4 * index)).storeVector index
        (relocated image_base (readWord image (4 * index))))
      refine ⟨fun i outside => ?_, hgot⟩
      rw [hvectors i (by omega), storeVector_vectors, Function.update_of_ne (by omega),
        readImage_vectors]
    · rw [vectorLoop_bad accepted]
      exact ⟨fun i _ => rfl, rfl⟩

/-- After the loop, each of its vectors is relocated. -/
theorem vectorLoop_at {image_base : UInt32} {buffers : Buffers}
    (ok : (vectorLoop image image_base image_size count index buffers).1 = true) {i : Nat}
    (first : index ≤ i) (last : i < index + count) :
    (vectorLoop image image_base image_size count index buffers).2.vectors i =
      relocated image_base (readWord image (4 * i)) := by
  induction count generalizing index buffers with
  | zero => omega
  | succ count ih =>
    have accepted := (vectorLoop_ok image_base buffers).mp ok 0 (by omega)
    rw [Nat.add_zero] at accepted
    rw [vectorLoop_accepted accepted] at ok ⊢
    by_cases here : i = index
    · subst here
      rw [(vectorLoop_frame image_base _).1 i (by omega), storeVector_vectors,
        Function.update_self]
    · exact ih ok (by omega) (by omega)

end

/-! ## The loop over the GOT -/

/-- The GOT entry that the loop stores for a word of the image. -/
def relocatedGot (image_base image_size value : UInt32) : UInt32 :=
  if value < image_size then image_base + value else value

section
variable {image : Image} {image_base image_size got_offset : UInt32} {count index : Nat}
  {buffers : Buffers}

theorem gotLoop_succ :
    gotLoop image image_base image_size got_offset (count + 1) index buffers =
      gotLoop image image_base image_size got_offset count (index + 1)
        ((buffers.readImage (got_offset.toNat + 4 * index)).storeGot index
          (relocatedGot image_base image_size
            (readWord image (got_offset.toNat + 4 * index)))) := rfl

/-- An access of the loop over the GOT. -/
def GotAccess (got_offset : UInt32) (first last : Nat) : Access → Prop
  | .image offset => ∃ i, first ≤ i ∧ i < last ∧ offset = got_offset.toNat + 4 * i
  | .vectors _ => False
  | .got i => first ≤ i ∧ i < last

theorem GotAccess.mono {first last : Nat} {access : Access}
    (h : GotAccess got_offset (first + 1) last access) :
    GotAccess got_offset first last access := by
  cases access with
  | image offset =>
    obtain ⟨i, hle, hlt, heq⟩ := h
    exact ⟨i, by omega, hlt, heq⟩
  | vectors i => exact h
  | got i => exact ⟨by have := h.1; omega, h.2⟩

theorem gotLoop_accesses (image_base image_size : UInt32) :
    ∀ access ∈ (gotLoop image image_base image_size got_offset count index buffers).accesses,
      access ∈ buffers.accesses ∨ GotAccess got_offset index (index + count) access := by
  induction count generalizing index buffers with
  | zero => exact fun access mem => Or.inl mem
  | succ count ih =>
    intro access mem
    rw [gotLoop_succ] at mem
    rcases ih access mem with before | inside
    · simp only [Buffers.storeGot, Buffers.readImage, List.append_assoc, List.mem_append,
        List.mem_cons, List.not_mem_nil, or_false] at before
      rcases before with before | rfl | rfl
      · exact Or.inl before
      · exact Or.inr ⟨index, Nat.le_refl _, by omega, rfl⟩
      · exact Or.inr ⟨Nat.le_refl _, by omega⟩
    · rw [show index + 1 + count = index + (count + 1) by omega] at inside
      exact Or.inr inside.mono

theorem gotLoop_frame (image_base image_size : UInt32) (buffers : Buffers) :
    let after := gotLoop image image_base image_size got_offset count index buffers
    (∀ i, i < index ∨ index + count ≤ i → after.got i = buffers.got i) ∧
      after.vectors = buffers.vectors := by
  induction count generalizing index buffers with
  | zero => exact ⟨fun i _ => rfl, rfl⟩
  | succ count ih =>
    obtain ⟨hgot, hvectors⟩ := @ih (index + 1)
      ((buffers.readImage (got_offset.toNat + 4 * index)).storeGot index
        (relocatedGot image_base image_size (readWord image (got_offset.toNat + 4 * index))))
    rw [gotLoop_succ]
    refine ⟨fun i outside => ?_, hvectors⟩
    rw [hgot i (by omega), storeGot_got, Function.update_of_ne (by omega), readImage_got]

theorem gotLoop_at (image_base image_size : UInt32) (buffers : Buffers) {i : Nat}
    (first : index ≤ i) (last : i < index + count) :
    (gotLoop image image_base image_size got_offset count index buffers).got i =
      relocatedGot image_base image_size (readWord image (got_offset.toNat + 4 * i)) := by
  induction count generalizing index buffers with
  | zero => omega
  | succ count ih =>
    rw [gotLoop_succ]
    by_cases here : i = index
    · subst here
      rw [(gotLoop_frame image_base image_size _).1 i (by omega), storeGot_got,
        Function.update_self]
    · exact ih _ (by omega) (by omega)

end

/-! ## The whole call -/

/-- An access inside the image and the used parts of the buffers. -/
def InBounds (image_size vector_words got_size vector_capacity_words got_capacity_words : UInt32) :
    Access → Prop
  | .image offset => offset + 4 ≤ image_size.toNat
  | .vectors index => index < vector_words.toNat ∧ index < vector_capacity_words.toNat
  | .got index => index < got_size.toNat / 4 ∧ index < got_capacity_words.toNat

/-- The bounds, in numbers. -/
theorem bounds_toNat {image_size vector_words got_offset got_size vector_capacity_words
    got_capacity_words : UInt32}
    (h : RelocationBounds image_size vector_words got_offset got_size vector_capacity_words
      got_capacity_words) :
    8 ≤ image_size.toNat ∧ 2 ≤ vector_words.toNat ∧
      vector_words.toNat ≤ vector_capacity_words.toNat ∧
      4 * vector_words.toNat ≤ image_size.toNat ∧
      got_offset.toNat + got_size.toNat ≤ image_size.toNat ∧
      got_size.toNat / 4 ≤ got_capacity_words.toNat := by
  unfold RelocationBounds at h
  simp only [not_or, UInt32.not_lt, not_not, gt_iff_lt] at h
  obtain ⟨⟨hsize, hwords, hcapacity, -, hquarter, -, -, hoffset, hgot⟩, hgot_capacity, -⟩ := h
  rw [UInt32.le_iff_toNat_le, UInt32.toNat_sub_of_le _ _ hoffset] at hgot
  rw [UInt32.le_iff_toNat_le] at hsize hwords hcapacity hquarter hoffset hgot_capacity
  have hfour : (4 : UInt32).toNat = 4 := rfl
  rw [UInt32.toNat_div, hfour] at hquarter hgot_capacity
  have hsize : 8 ≤ image_size.toNat := hsize
  have hwords : 2 ≤ vector_words.toNat := hwords
  refine ⟨by omega, by omega, by omega, by omega, by omega, by omega⟩

section
variable {image : Image} {image_size vector_words got_offset got_size vector_capacity_words
  got_capacity_words : UInt32}

/-- Every access of the call is in bounds, also when it ends early. -/
theorem relocate_accesses (image_base : UInt32) (vectors got : Nat → UInt32) :
    ∀ access ∈ (relocate image image_base image_size vector_words got_offset got_size
        vector_capacity_words got_capacity_words ⟨vectors, got, []⟩).2.accesses,
      InBounds image_size vector_words got_size vector_capacity_words got_capacity_words
        access := by
  unfold relocate
  split
  · exact fun access mem => absurd mem List.not_mem_nil
  · rename_i hbounds
    obtain ⟨hsize, hwords, hcapacity, hvectors, hgot, hgot_capacity⟩ :=
      bounds_toNat (not_not.mp hbounds)
    have hloop := @vectorLoop_accesses image image_size (vector_words.toNat - 1) 1
      ((Buffers.readImage ⟨vectors, got, []⟩ 0).storeVector 0 (readWord image 0)) image_base
    have hfirst : ∀ access ∈ (vectorLoop image image_base image_size (vector_words.toNat - 1) 1
        ((Buffers.readImage ⟨vectors, got, []⟩ 0).storeVector 0 (readWord image 0))).2.accesses,
        InBounds image_size vector_words got_size vector_capacity_words got_capacity_words
          access := by
      intro access mem
      rcases hloop access mem with before | inside
      · have hcases : access = .image 0 ∨ access = .vectors 0 := by
          simpa [Buffers.storeVector, Buffers.readImage] using before
        rcases hcases with rfl | rfl
        · show 0 + 4 ≤ image_size.toNat
          omega
        · exact ⟨by omega, by omega⟩
      · cases access with
        | image offset =>
          obtain ⟨i, -, hlt, rfl⟩ := inside
          show 4 * i + 4 ≤ image_size.toNat
          omega
        | vectors i => exact ⟨by have := inside.2; omega, by have := inside.2; omega⟩
        | got i => exact inside.elim
    dsimp only
    split
    · intro access mem
      rcases gotLoop_accesses image_base image_size access mem with before | inside
      · exact hfirst access before
      · have hquarter : (got_size / 4).toNat = got_size.toNat / 4 := by
          rw [UInt32.toNat_div]
          rfl
        rw [hquarter] at inside
        cases access with
        | image offset =>
          obtain ⟨i, -, hlt, rfl⟩ := inside
          show got_offset.toNat + 4 * i + 4 ≤ image_size.toNat
          omega
        | vectors i => exact inside.elim
        | got i => exact ⟨by have := inside.2; omega, by have := inside.2; omega⟩
    · exact hfirst

/-- The call returns 1 exactly when its bounds hold and every vector after the
stack pointer is accepted, whatever the base. -/
theorem relocate_returns (image_base : UInt32) (buffers : Buffers) :
    (relocate image image_base image_size vector_words got_offset got_size
        vector_capacity_words got_capacity_words buffers).1 = true ↔
      RelocationBounds image_size vector_words got_offset got_size vector_capacity_words
          got_capacity_words ∧
        ∀ k < vector_words.toNat - 1, VectorAccepted image_size (readWord image (4 * (1 + k))) := by
  have hloop := @vectorLoop_ok image image_size (vector_words.toNat - 1) 1 image_base
    ((buffers.readImage 0).storeVector 0 (readWord image 0))
  unfold relocate
  by_cases hbounds : RelocationBounds image_size vector_words got_offset got_size
      vector_capacity_words got_capacity_words
  · rw [if_neg (not_not.mpr hbounds), ← hloop]
    dsimp only
    split
    · rename_i hok
      simp [hbounds, hok]
    · simp [hbounds]
  · rw [if_pos hbounds]
    simp [hbounds]

/-- What stands in the buffers after a successful call. -/
theorem relocate_stored {image_base : UInt32} {buffers : Buffers}
    (ok : (relocate image image_base image_size vector_words got_offset got_size
      vector_capacity_words got_capacity_words buffers).1 = true) :
    let after := (relocate image image_base image_size vector_words got_offset got_size
      vector_capacity_words got_capacity_words buffers).2
    after.vectors 0 = readWord image 0 ∧
      (∀ i, 1 ≤ i → i < vector_words.toNat →
        after.vectors i = relocated image_base (readWord image (4 * i))) ∧
      ∀ i < got_size.toNat / 4,
        after.got i =
          relocatedGot image_base image_size (readWord image (got_offset.toNat + 4 * i)) := by
  obtain ⟨hbounds, haccepted⟩ := (relocate_returns image_base buffers).mp ok
  have hquarter : (got_size / 4).toNat = got_size.toNat / 4 := by
    rw [UInt32.toNat_div]
    rfl
  have hloop := (@vectorLoop_ok image image_size (vector_words.toNat - 1) 1 image_base
    ((buffers.readImage 0).storeVector 0 (readWord image 0))).mpr haccepted
  unfold relocate
  rw [if_neg (not_not.mpr hbounds)]
  dsimp only
  rw [if_pos hloop]
  obtain ⟨-, hkept⟩ := @gotLoop_frame image got_offset (got_size / 4).toNat 0 image_base image_size
    (vectorLoop image image_base image_size (vector_words.toNat - 1) 1
      ((buffers.readImage 0).storeVector 0 (readWord image 0))).2
  rw [hkept]
  refine ⟨?_, ?_, ?_⟩
  · rw [(vectorLoop_frame image_base _).1 0 (by omega), storeVector_vectors, Function.update_self]
  · intro i first last
    exact vectorLoop_at hloop first (by omega)
  · intro i last
    exact gotLoop_at image_base image_size _ (Nat.zero_le _) (by rw [hquarter]; omega)

/-- The call leaves the rest of the buffers alone, also when it ends early. -/
theorem relocate_rest (image_base : UInt32) (buffers : Buffers) :
    let after := (relocate image image_base image_size vector_words got_offset got_size
      vector_capacity_words got_capacity_words buffers).2
    (∀ i, vector_words.toNat ≤ i → after.vectors i = buffers.vectors i) ∧
      ∀ i, got_size.toNat / 4 ≤ i → after.got i = buffers.got i := by
  have hquarter : (got_size / 4).toNat = got_size.toNat / 4 := by
    rw [UInt32.toNat_div]
    rfl
  unfold relocate
  split
  · exact ⟨fun i _ => rfl, fun i _ => rfl⟩
  · rename_i hbounds
    obtain ⟨-, hwords, -⟩ := bounds_toNat (not_not.mp hbounds)
    obtain ⟨hvectors, hgot⟩ := @vectorLoop_frame image image_size (vector_words.toNat - 1) 1
      image_base ((buffers.readImage 0).storeVector 0 (readWord image 0))
    have hloop : ∀ i, vector_words.toNat ≤ i → (vectorLoop image image_base image_size
        (vector_words.toNat - 1) 1
        ((buffers.readImage 0).storeVector 0 (readWord image 0))).2.vectors i =
          buffers.vectors i := by
      intro i outside
      rw [hvectors i (by omega), storeVector_vectors, Function.update_of_ne (by omega),
        readImage_vectors]
    dsimp only
    split
    · obtain ⟨hgot', hvectors'⟩ := @gotLoop_frame image got_offset (got_size / 4).toNat 0
        image_base image_size (vectorLoop image image_base image_size (vector_words.toNat - 1) 1
          ((buffers.readImage 0).storeVector 0 (readWord image 0))).2
      dsimp only
      rw [hvectors']
      refine ⟨hloop, fun i outside => ?_⟩
      rw [hgot' i (by rw [hquarter]; omega), hgot]
      rfl
    · rw [hgot]
      exact ⟨hloop, fun i _ => rfl⟩

end

/-! ## The buffers in the RAM -/

/-- The buffers stand in the RAM at two addresses, clear of each other. -/
structure InRam (ram : Ram) (vectors vector_words got got_words : Nat) (buffers : Buffers) :
    Prop where
  apart : vectors + 4 * vector_words ≤ got ∨ got + 4 * got_words ≤ vectors
  vectors : ∀ i < vector_words, ram (vectors + 4 * i) = buffers.vectors i
  got : ∀ i < got_words, ram (got + 4 * i) = buffers.got i

section
variable {ram : Ram} {vectors vector_words got got_words : Nat} {buffers : Buffers}

theorem InRam.readImage (h : InRam ram vectors vector_words got got_words buffers)
    (offset : Nat) : InRam ram vectors vector_words got got_words (buffers.readImage offset) :=
  ⟨h.apart, h.vectors, h.got⟩

theorem InRam.storeVector (h : InRam ram vectors vector_words got got_words buffers) {index : Nat}
    (hindex : index < vector_words) (value : UInt32) :
    InRam (Function.update ram (vectors + 4 * index) value) vectors vector_words got got_words
      (buffers.storeVector index value) := by
  have hapart := h.apart
  refine ⟨h.apart, fun i hi => ?_, fun i hi => ?_⟩
  · rw [storeVector_vectors]
    by_cases here : i = index
    · rw [here, Function.update_self, Function.update_self]
    · rw [Function.update_of_ne (by omega), Function.update_of_ne here, h.vectors i hi]
  · rw [storeVector_got, Function.update_of_ne (by omega), h.got i hi]

theorem InRam.storeGot (h : InRam ram vectors vector_words got got_words buffers) {index : Nat}
    (hindex : index < got_words) (value : UInt32) :
    InRam (Function.update ram (got + 4 * index) value) vectors vector_words got got_words
      (buffers.storeGot index value) := by
  have hapart := h.apart
  refine ⟨h.apart, fun i hi => ?_, fun i hi => ?_⟩
  · rw [storeGot_vectors, Function.update_of_ne (by omega), h.vectors i hi]
  · rw [storeGot_got]
    by_cases here : i = index
    · rw [here, Function.update_self, Function.update_self]
    · rw [Function.update_of_ne (by omega), Function.update_of_ne here, h.got i hi]

theorem vectorLoop_inRam {image : Image} {image_base image_size : UInt32} {count index : Nat}
    (h : InRam ram vectors vector_words got got_words buffers)
    (hcount : index + count ≤ vector_words) :
    let out := relocateVectors image image_base image_size vectors count index ram
    let out' := vectorLoop image image_base image_size count index buffers
    out.1 = out'.1 ∧ InRam out.2 vectors vector_words got got_words out'.2 := by
  induction count generalizing index ram buffers with
  | zero => exact ⟨rfl, h⟩
  | succ count ih =>
    by_cases accepted : VectorAccepted image_size (readWord image (4 * index))
    · rw [vectorLoop_accepted accepted, relocateVectors_step _ _ _ _ _ _ _ accepted]
      exact ih ((h.readImage _).storeVector (by omega) _) (by omega)
    · rw [vectorLoop_bad accepted, relocateVectors_bad _ _ _ _ _ _ _ accepted]
      exact ⟨rfl, h.readImage _⟩

theorem gotLoop_inRam {image : Image} {image_base image_size got_offset : UInt32}
    {count index : Nat} (h : InRam ram vectors vector_words got got_words buffers)
    (hcount : index + count ≤ got_words) :
    InRam (relocateGot image image_base image_size got_offset got count index ram) vectors
      vector_words got got_words
      (gotLoop image image_base image_size got_offset count index buffers) := by
  induction count generalizing index ram buffers with
  | zero => exact h
  | succ count ih =>
    rw [gotLoop_succ, relocateGot]
    exact ih ((h.readImage _).storeGot (by omega) _) (by omega)

/-- The call on two buffers in the RAM is the call on the two buffers. -/
theorem relocate_inRam {image : Image} {image_base image_size vector_words got_offset got_size
    vector_capacity_words got_capacity_words : UInt32}
    (h : InRam ram vectors vector_words.toNat got (got_size / 4).toNat buffers) :
    let out := boot_runtime_relocate image image_base image_size vector_words got_offset got_size
      vectors vector_capacity_words got got_capacity_words ram
    let out' := relocate image image_base image_size vector_words got_offset got_size
      vector_capacity_words got_capacity_words buffers
    out.1 = out'.1 ∧ InRam out.2 vectors vector_words.toNat got (got_size / 4).toNat out'.2 := by
  unfold boot_runtime_relocate relocate
  by_cases hbounds : RelocationBounds image_size vector_words got_offset got_size
      vector_capacity_words got_capacity_words
  · obtain ⟨-, hwords, -⟩ := bounds_toNat hbounds
    rw [if_neg (not_not.mpr hbounds), if_neg (not_not.mpr hbounds)]
    have hfirst := (h.readImage 0).storeVector (by omega : 0 < vector_words.toNat)
      (readWord image 0)
    rw [Nat.mul_zero, Nat.add_zero] at hfirst
    obtain ⟨hok, hloop⟩ := @vectorLoop_inRam _ vectors vector_words.toNat got (got_size / 4).toNat
      _ image image_base image_size (vector_words.toNat - 1) 1 hfirst (by omega)
    dsimp only
    generalize relocateVectors image image_base image_size vectors (vector_words.toNat - 1) 1
      (Function.update ram vectors (readWord image 0)) = out at hok hloop ⊢
    generalize vectorLoop image image_base image_size (vector_words.toNat - 1) 1
      ((buffers.readImage 0).storeVector 0 (readWord image 0)) = out' at hok hloop ⊢
    obtain ⟨ok, after⟩ := out
    dsimp only at hok hloop
    rw [← hok]
    cases ok with
    | false => exact ⟨hok, hloop⟩
    | true => exact ⟨rfl, gotLoop_inRam hloop (by omega)⟩
  · rw [if_pos hbounds, if_pos hbounds]
    exact ⟨rfl, h⟩

end

/-! ## Two bases -/

/-- Two bases give vectors that are both unused or apart by the bases. -/
theorem relocated_shift (b1 b2 handler : UInt32) :
    (relocated b1 handler = 0 ∧ relocated b2 handler = 0) ∨
      relocated b2 handler - relocated b1 handler = b2 - b1 := by
  unfold relocated
  split
  · exact Or.inl ⟨rfl, rfl⟩
  · exact Or.inr (add_sub_add_right_eq_sub b2 b1 handler)

theorem relocatedGot_shift (b1 b2 image_size value : UInt32) :
    relocatedGot b1 image_size value = relocatedGot b2 image_size value ∨
      relocatedGot b2 image_size value - relocatedGot b1 image_size value = b2 - b1 := by
  unfold relocatedGot
  split
  · exact Or.inr (add_sub_add_right_eq_sub b2 b1 value)
  · exact Or.inl rfl

/-- A relocated vector that is used is an odd address, and without the Thumb bit
one inside the image. -/
theorem relocated_inside {image_base image_size handler : UInt32}
    (accepted : VectorAccepted image_size handler) (even : image_base.toNat % 2 = 0)
    (fits : image_base.toNat + image_size.toNat ≤ 2 ^ 32)
    (used : relocated image_base handler ≠ 0) :
    relocated image_base handler &&& 1 ≠ 0 ∧
      image_base.toNat ≤ (relocated image_base handler &&& ~~~1).toNat ∧
      (relocated image_base handler &&& ~~~1).toNat < image_base.toNat + image_size.toNat := by
  have not_unused : ¬ (handler = 0 ∨ handler = UNUSED_VECTOR) := by
    intro unused
    apply used
    unfold relocated
    rw [if_pos unused]
  obtain ⟨odd, inside⟩ : handler &&& 1 ≠ 0 ∧ handler &&& ~~~1 < image_size := by
    rcases accepted with unused | unused | inside
    · exact absurd (Or.inl unused) not_unused
    · exact absurd (Or.inr unused) not_unused
    · exact inside
  rw [thumb_iff] at odd
  rw [UInt32.lt_iff_toNat_lt, clear_thumb] at inside
  unfold relocated
  rw [if_neg not_unused, thumb_iff, clear_thumb]
  -- An even base and an odd offset never add up to 2^32, so the sum does not wrap.
  have hsum : (image_base + handler).toNat = image_base.toNat + handler.toNat := by
    rw [UInt32.toNat_add]
    apply Nat.mod_eq_of_lt
    omega
  rw [hsum]
  omega

/-- The relocation does not depend on where the image lies. It stays inside the
image and the buffers, the base decides nothing about its success, and it only
shifts what is stored. The call in the RAM does the same to its two buffers, and
nothing else. -/
theorem relocate_base_independent (image : Image) (image_size vector_words got_offset got_size
    vector_capacity_words got_capacity_words b1 b2 : UInt32)
    (vectors1 got1 vectors2 got2 : Nat → UInt32) :
    let out1 := relocate image b1 image_size vector_words got_offset got_size
      vector_capacity_words got_capacity_words ⟨vectors1, got1, []⟩
    let out2 := relocate image b2 image_size vector_words got_offset got_size
      vector_capacity_words got_capacity_words ⟨vectors2, got2, []⟩
    (∀ access ∈ out1.2.accesses,
      InBounds image_size vector_words got_size vector_capacity_words got_capacity_words
        access) ∧
    (∀ i, vector_words.toNat ≤ i → out1.2.vectors i = vectors1 i) ∧
    (∀ i, got_size.toNat / 4 ≤ i → out1.2.got i = got1 i) ∧
    out1.1 = out2.1 ∧
    (out1.1 = true →
      out1.2.vectors 0 = readWord image 0 ∧ out1.2.vectors 0 = out2.2.vectors 0 ∧
      (∀ i, 1 ≤ i → i < vector_words.toNat →
        out1.2.vectors i = relocated b1 (readWord image (4 * i)) ∧
          ((out1.2.vectors i = 0 ∧ out2.2.vectors i = 0) ∨
            out2.2.vectors i - out1.2.vectors i = b2 - b1)) ∧
      (∀ i < got_size.toNat / 4,
        out1.2.got i = relocatedGot b1 image_size (readWord image (got_offset.toNat + 4 * i)) ∧
          (out1.2.got i = out2.2.got i ∨ out2.2.got i - out1.2.got i = b2 - b1)) ∧
      (b1.toNat % 2 = 0 → b1.toNat + image_size.toNat ≤ 2 ^ 32 →
        ∀ i, 1 ≤ i → i < vector_words.toNat → out1.2.vectors i ≠ 0 →
          out1.2.vectors i &&& 1 ≠ 0 ∧ b1.toNat ≤ (out1.2.vectors i &&& ~~~1).toNat ∧
            (out1.2.vectors i &&& ~~~1).toNat < b1.toNat + image_size.toNat)) ∧
    ∀ (ram : Ram) (vectors got : Nat),
      InRam ram vectors vector_words.toNat got (got_size / 4).toNat ⟨vectors1, got1, []⟩ →
        let out := boot_runtime_relocate image b1 image_size vector_words got_offset got_size
          vectors vector_capacity_words got got_capacity_words ram
        out.1 = out1.1 ∧
          InRam out.2 vectors vector_words.toNat got (got_size / 4).toNat out1.2 ∧
          ∀ address, address < vectors ∨ vectors + 4 * vector_words.toNat ≤ address →
            address < got ∨ got + 4 * (got_size / 4).toNat ≤ address →
              out.2 address = ram address := by
  intro out1 out2
  have hreturns1 : out1.1 = true ↔ _ := relocate_returns b1 ⟨vectors1, got1, []⟩
  have hreturns2 : out2.1 = true ↔ _ := relocate_returns b2 ⟨vectors2, got2, []⟩
  obtain ⟨hvectors, hgot⟩ := @relocate_rest image image_size vector_words got_offset got_size
    vector_capacity_words got_capacity_words b1 ⟨vectors1, got1, []⟩
  refine ⟨relocate_accesses b1 vectors1 got1, hvectors, hgot, ?_, ?_, ?_⟩
  · rw [Bool.eq_iff_iff, hreturns1, hreturns2]
  · intro ok1
    obtain ⟨-, accepted⟩ := hreturns1.mp ok1
    have ok2 : out2.1 = true := hreturns2.mpr (hreturns1.mp ok1)
    obtain ⟨hstack1, hvectors1, hgot1⟩ := relocate_stored ok1
    obtain ⟨hstack2, hvectors2, hgot2⟩ := relocate_stored ok2
    refine ⟨hstack1, hstack1.trans hstack2.symm, ?_, ?_, ?_⟩
    · intro i first last
      refine ⟨hvectors1 i first last, ?_⟩
      rw [hvectors1 i first last, hvectors2 i first last]
      exact relocated_shift b1 b2 _
    · intro i last
      refine ⟨hgot1 i last, ?_⟩
      rw [hgot1 i last, hgot2 i last]
      exact relocatedGot_shift b1 b2 image_size _
    · intro even fits i first last used
      rw [hvectors1 i first last] at used ⊢
      have hi := accepted (i - 1) (by omega)
      rw [show 1 + (i - 1) = i by omega] at hi
      exact relocated_inside hi even fits used
  · intro ram vectors got hram out
    obtain ⟨hok, hin⟩ := relocate_inRam hram
    exact ⟨hok, hin, fun address hv hg => relocate_frame _ _ _ _ _ _ _ _ _ _ _ address hv hg⟩

/-- Two vectors and an empty GOT, at the two slots of the F446, in an empty RAM. -/
theorem relocate_base_independent_pair :
    let image : Image := fun index => if index = 4 then 5 else 0
    let out := fun image_base => relocate image image_base 8 2 0 0 128 256
      ⟨fun _ => 0, fun _ => 0, []⟩
    (out 0x08020000).1 = true ∧
      (out 0x08020000).2.vectors 0 = (out 0x08040000).2.vectors 0 ∧
      (out 0x08020000).2.vectors 1 = 0x08020005 ∧
      (boot_runtime_relocate image 0x08020000 8 2 0 0 0x200 128 0x600 256 fun _ => 0).1 = true := by
  intro image out
  have hok : (out 0x08020000).1 = true := by decide
  obtain ⟨-, -, -, -, hstored, hram⟩ := relocate_base_independent image 8 2 0 0 128 256 0x08020000
    0x08040000 (fun _ => 0) (fun _ => 0) (fun _ => 0) (fun _ => 0)
  obtain ⟨-, hstack, hvectors, -, -⟩ := hstored hok
  have hin : InRam (fun _ => 0) 0x200 (2 : UInt32).toNat 0x600 ((0 : UInt32) / 4).toNat
      ⟨fun _ => 0, fun _ => 0, []⟩ := ⟨Or.inl (by decide), fun _ _ => rfl, fun _ _ => rfl⟩
  refine ⟨hok, hstack, ?_, (hram _ 0x200 0x600 hin).1.trans hok⟩
  rw [(hvectors 1 (by decide) (by decide)).1]
  decide

end stm32_vibe.relocation
