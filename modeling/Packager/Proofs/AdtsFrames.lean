import Packager.Track.Audio
/-!
# Proofs.AdtsFrames — an ADTS stream and its frames

Every byte string is a row of whole frames and a rest that no whole frame opens (`Adts.exists_frames`).  What splitting
answers is read off that rest (`Adts.split_frames`): the frames when the rest is empty or has a whole header, and else
what is wrong with it.  A stream that is cut off inside a header is of the second kind (`Adts.header?_take`).
-/
namespace Packager
namespace Adts

/-! ## Headers -/

theorem headerLength_fields (b1 b2 b3 b4 b5 : Nat) :
    (fields b1 b2 b3 b4 b5).headerLength = 7 ∨ (fields b1 b2 b3 b4 b5).headerLength = 9 := by
  unfold fields
  by_cases hp : b1 % 2 = 1
  · exact .inl (if_pos hp)
  · exact .inr (if_neg hp)

theorem header?_short {data : Bytes} (hsync : hasSyncword data = true) (hshort : data.length < 7) :
    header? data = .error (.truncatedHeader data.length) := by
  rcases data with _ | ⟨b0, _ | ⟨b1, _ | ⟨b2, _ | ⟨b3, _ | ⟨b4, _ | ⟨b5, _ | ⟨b6, rest⟩⟩⟩⟩⟩⟩⟩
  · cases hsync
  · cases hsync
  iterate 5 simp [header?, hsync]
  · simp only [List.length_cons] at hshort
    omega

/-- What is read when the first seven bytes are there. -/
theorem header?_seven {b1 : UInt8} (hb1 : b1.toNat / 16 = 15) (b2 b3 b4 b5 b6 : UInt8) (rest : Bytes) :
    header? (0xFF :: b1 :: b2 :: b3 :: b4 :: b5 :: b6 :: rest) =
      let h := fields b1.toNat b2.toNat b3.toNat b4.toNat b5.toNat
      if rest.length + 7 < h.headerLength then .error .truncatedChecksum
      else if samplingRates.length ≤ h.samplingIndex then .error (.reservedSamplingIndex h.samplingIndex)
      else if h.frameLength < h.headerLength then .error (.frameShorterThanHeader h.frameLength)
      else .ok (some h) := by
  have hchecksum : (fields b1.toNat b2.toNat b3.toNat b4.toNat b5.toNat).headerLength = 9 ∧ (rest.take 2).length < 2 ↔
      rest.length + 7 < (fields b1.toNat b2.toNat b3.toNat b4.toNat b5.toNat).headerLength := by
    rw [List.length_take]
    rcases headerLength_fields b1.toNat b2.toNat b3.toNat b4.toNat b5.toNat with h | h <;> rw [h] <;> omega
  simp only [header?, hasSyncword, hb1, BEq.rfl, Bool.and_self, Bool.not_true, Bool.false_eq_true, if_false, hchecksum]

/-- **What an accepted header is**: seven bytes that open with the syncword, a known sampling rate, and a frame that is not
shorter than the header, all of which is there. -/
theorem header?_eq_some {data : Bytes} {h : Header} : header? data = .ok (some h) ↔
    ∃ b1 b2 b3 b4 b5 b6 rest, data = 0xFF :: b1 :: b2 :: b3 :: b4 :: b5 :: b6 :: rest ∧ b1.toNat / 16 = 15 ∧
      h = fields b1.toNat b2.toNat b3.toNat b4.toNat b5.toNat ∧ h.headerLength ≤ data.length ∧
      h.samplingIndex < samplingRates.length ∧ h.headerLength ≤ h.frameLength := by
  constructor
  · intro hd
    by_cases hsync : hasSyncword data = true
    · by_cases hshort : data.length < 7
      · rw [header?_short hsync hshort] at hd
        cases hd
      · rcases data with _ | ⟨b0, _ | ⟨b1, _ | ⟨b2, _ | ⟨b3, _ | ⟨b4, _ | ⟨b5, _ | ⟨b6, rest⟩⟩⟩⟩⟩⟩⟩
        iterate 7 simp at hshort
        obtain ⟨rfl, hb1⟩ : b0 = 0xFF ∧ b1.toNat / 16 = 15 := by simpa [hasSyncword] using hsync
        rw [header?_seven hb1] at hd
        refine ⟨b1, b2, b3, b4, b5, b6, rest, rfl, hb1, ?_⟩
        dsimp only at hd
        generalize fields b1.toNat b2.toNat b3.toNat b4.toNat b5.toNat = g at hd ⊢
        by_cases hchecksum : rest.length + 7 < g.headerLength
        · rw [if_pos hchecksum] at hd
          cases hd
        by_cases hrate : samplingRates.length ≤ g.samplingIndex
        · rw [if_neg hchecksum, if_pos hrate] at hd
          cases hd
        by_cases hlength : g.frameLength < g.headerLength
        · rw [if_neg hchecksum, if_neg hrate, if_pos hlength] at hd
          cases hd
        rw [if_neg hchecksum, if_neg hrate, if_neg hlength] at hd
        cases hd
        exact ⟨rfl, Nat.le_of_not_lt hchecksum, Nat.lt_of_not_le hrate, Nat.le_of_not_lt hlength⟩
    · simp [header?, hsync] at hd
  · rintro ⟨b1, b2, b3, b4, b5, b6, rest, rfl, hb1, rfl, hchecksum, hrate, hlength⟩
    simp only [List.length_cons] at hchecksum
    rw [header?_seven hb1, if_neg (by omega), if_neg (by omega), if_neg (by omega)]

/-- A header that is accepted stays so whatever follows it. -/
theorem header?_append {data : Bytes} {h : Header} (hd : header? data = .ok (some h)) (more : Bytes) :
    header? (data ++ more) = .ok (some h) := by
  obtain ⟨b1, b2, b3, b4, b5, b6, rest, rfl, hb1, hh, hcrc, hrate, hlen⟩ := header?_eq_some.1 hd
  refine header?_eq_some.2 ⟨b1, b2, b3, b4, b5, b6, rest ++ more, rfl, hb1, hh, ?_, hrate, hlen⟩
  rw [List.length_append]
  omega

/-- **A stream cut off after `n` bytes of a header.**  Without the syncword it is raw AAC, and with less than the whole
header it is broken. -/
theorem header?_take {data : Bytes} {h : Header} (hd : header? data = .ok (some h)) {n : Nat} (hn : n ≤ data.length) :
    header? (data.take n) =
      if n < 2 then .ok none
      else if n < 7 then .error (.truncatedHeader n)
      else if n < h.headerLength then .error .truncatedChecksum
      else .ok (some h) := by
  obtain ⟨b1, b2, b3, b4, b5, b6, rest, rfl, hb1, hh, -, hrate, hlength⟩ := header?_eq_some.1 hd
  match n, hn with
  | 0, _ | 1, _ => rfl
  | n + 2, hn =>
    rw [if_neg (by omega)]
    by_cases hshort : n + 2 < 7
    · have hsync : hasSyncword ((0xFF :: b1 :: b2 :: b3 :: b4 :: b5 :: b6 :: rest).take (n + 2)) = true := by
        simp [hasSyncword, hb1]
      have hlen := List.length_take_of_le hn
      rw [if_pos hshort, header?_short hsync (by rwa [hlen]), hlen]
    · obtain ⟨k, rfl⟩ : ∃ k, n = k + 5 := ⟨n - 5, by omega⟩
      have hlen : (rest.take k).length = k := by
        simp only [List.length_cons] at hn
        exact List.length_take_of_le (by omega)
      have htake : (0xFF :: b1 :: b2 :: b3 :: b4 :: b5 :: b6 :: rest).take (k + 5 + 2) =
          0xFF :: b1 :: b2 :: b3 :: b4 :: b5 :: b6 :: rest.take k := rfl
      rw [if_neg hshort, htake, header?_seven hb1, ← hh]
      dsimp only
      rw [hlen, if_neg (Nat.not_le_of_lt hrate), if_neg (Nat.not_lt_of_le hlength)]

/-! ## Frames and what is left over -/

/-- Whether a byte string is one whole frame: its header gives its own length. -/
def IsFrame (frame : Bytes) : Prop := ∃ h, header? frame = .ok (some h) ∧ h.frameLength = frame.length

/-- Whether no whole frame opens a byte string. -/
def Torn (rest : Bytes) : Prop := ∀ h, header? rest = .ok (some h) → rest.length < h.frameLength

/-- What is wrong with the rest of a stream behind its whole frames.  It starts at `offset` of the stream. -/
def restFault? (offset : Nat) (rest : Bytes) : Option BitstreamFault :=
  match header? rest with
  | .error fault => some fault
  | .ok none => if rest.isEmpty then none else some (.missingSyncword offset)
  | .ok (some _) => none

/-- The answer for whole frames before such a rest. -/
def answer (offset : Nat) (frames : List Bytes) (rest : Bytes) : Except BitstreamFault (List Bytes) :=
  match restFault? offset rest with
  | none => .ok frames
  | some fault => .error fault

theorem answer_eq_ok {offset : Nat} {frames frames' : List Bytes} {rest : Bytes} :
    answer offset frames rest = .ok frames' ↔ restFault? offset rest = none ∧ frames = frames' := by
  rw [answer]
  cases restFault? offset rest with
  | none => simp
  | some fault => simp

theorem restFault?_eq_none {offset : Nat} {rest : Bytes} :
    restFault? offset rest = none ↔ rest = [] ∨ ∃ h, header? rest = .ok (some h) := by
  rw [restFault?]
  cases hd : header? rest with
  | error fault =>
    have hne : rest ≠ [] := fun hnil => by
      rw [hnil] at hd
      cases hd
    simp [hne]
  | ok header => cases header <;> simp

theorem torn_nil : Torn [] := fun h hd => by cases hd

theorem IsFrame.seven_le {frame : Bytes} (hf : IsFrame frame) : 7 ≤ frame.length := by
  obtain ⟨h, hd, hlen⟩ := hf
  have h1 := seven_le_headerLength hd
  have h2 := headerLength_le_frameLength hd
  omega

theorem splitFrom_frame {frame : Bytes} (hf : IsFrame frame) (offset : Nat) (rest : Bytes) :
    splitFrom offset (frame ++ rest) = (splitFrom (offset + frame.length) rest).map (frame :: ·) := by
  obtain ⟨h, hd, hlen⟩ := hf
  have hwhole := header?_append hd rest
  have hne : (frame ++ rest).isEmpty = false := by
    have := IsFrame.seven_le ⟨h, hd, hlen⟩
    cases frame with
    | nil => contradiction
    | cons => rfl
  rw [splitFrom, if_neg (by simp [hne])]
  split
  · rename_i fault he
    rw [hwhole] at he
    cases he
  · rename_i he
    rw [hwhole] at he
    cases he
  · rename_i g he
    rw [hwhole] at he
    cases he
    rw [dif_neg (by simp [hlen])]
    simp only [hlen, List.take_left, List.drop_left]
    cases splitFrom (offset + frame.length) rest <;> rfl

theorem splitFrom_torn {rest : Bytes} (ht : Torn rest) (offset : Nat) :
    splitFrom offset rest = answer offset [] rest := by
  rw [splitFrom, answer, restFault?]
  by_cases hne : rest.isEmpty
  · rw [List.isEmpty_iff.1 hne]
    rfl
  · rw [if_neg hne]
    split
    · rename_i fault he
      rw [he]
    · rename_i he
      rw [he, if_neg hne]
    · rename_i h he
      have := ht h he
      rw [dif_pos (by rw [List.length_take]; omega), he]

/-- **The answer is read off the rest** behind the whole frames. -/
theorem split_frames {frames : List Bytes} (hf : ∀ frame ∈ frames, IsFrame frame) {rest : Bytes} (ht : Torn rest) :
    split (frames.flatten ++ rest) = answer frames.flatten.length frames rest := by
  have general : ∀ offset, splitFrom offset (frames.flatten ++ rest) =
      answer (offset + frames.flatten.length) frames rest := by
    induction frames with
    | nil => exact splitFrom_torn ht
    | cons frame frames ih =>
      obtain ⟨hframe, hframes⟩ := List.forall_mem_cons.1 hf
      intro offset
      rw [List.flatten_cons, List.append_assoc, splitFrom_frame hframe, ih hframes, List.length_append, Nat.add_assoc]
      unfold answer
      cases restFault? (offset + (frame.length + frames.flatten.length)) rest <;> rfl
  rw [split, general 0, Nat.zero_add]

/-- **Every byte string is a row of frames and a rest** that no frame opens. -/
theorem exists_frames (data : Bytes) :
    ∃ frames rest, data = List.flatten frames ++ rest ∧ (∀ frame ∈ frames, IsFrame frame) ∧ Torn rest := by
  by_cases ht : Torn data
  · exact ⟨[], data, rfl, by simp, ht⟩
  · obtain ⟨h, hd, hle⟩ : ∃ h, header? data = .ok (some h) ∧ h.frameLength ≤ data.length := by
      simpa [Torn] using ht
    have h1 := seven_le_headerLength hd
    have h2 := headerLength_le_frameLength hd
    have hframe : IsFrame (data.take h.frameLength) := by
      refine ⟨h, ?_, (List.length_take_of_le hle).symm⟩
      rw [header?_take hd hle, if_neg (by omega), if_neg (by omega), if_neg (by omega)]
    obtain ⟨frames, rest, he, hf, ht⟩ := exists_frames (data.drop h.frameLength)
    refine ⟨data.take h.frameLength :: frames, rest, ?_, List.forall_mem_cons.2 ⟨hframe, hf⟩, ht⟩
    rw [List.flatten_cons, List.append_assoc, ← he, List.take_append_drop]
termination_by data.length
decreasing_by
  rw [List.length_drop]
  omega

theorem payload_eq_slice (h : Header) (data : Bytes) : AudioStream.payload (some h) data =
    Bytes.slice h.headerLength (min h.frameLength data.length - h.headerLength) data := by
  rw [AudioStream.payload, List.drop_take, Bytes.slice, List.take_eq_take_iff, List.length_drop]
  omega

/-- **Splitting yields the whole frames.**  The frames of an answer are the stream up to a rest that is empty or starts with
a header of more bytes than there are.  Whole frames in a row are split into themselves.  An accepted header is no longer
than its frame, so that each turn leaves less of the stream, and the payload of a frame is all of the slice behind it. -/
theorem split_into_frames :
    (∀ (data : Bytes) (frames : List Bytes), split data = .ok frames →
      ∃ rest, data = frames.flatten ++ rest ∧ (∀ frame ∈ frames, IsFrame frame) ∧
        (rest = [] ∨ ∃ h, header? rest = .ok (some h) ∧ rest.length < h.frameLength)) ∧
    (∀ frames : List Bytes, (∀ frame ∈ frames, IsFrame frame) → split frames.flatten = .ok frames) ∧
    ∀ (data : Bytes) (h : Header), header? data = .ok (some h) →
      h.headerLength ≤ h.frameLength ∧ (data.drop h.frameLength).length < data.length ∧
      h.headerLength ≤ min h.frameLength data.length ∧
      AudioStream.payload (some h) data =
        Bytes.slice h.headerLength (min h.frameLength data.length - h.headerLength) data ∧
      (AudioStream.payload (some h) data).length = min h.frameLength data.length - h.headerLength := by
  refine ⟨fun data frames hok => ?_, fun frames hf => ?_, fun data h hd => ?_⟩
  · obtain ⟨frames', rest, rfl, hf, ht⟩ := exists_frames data
    rw [split_frames hf ht] at hok
    obtain ⟨hfault, rfl⟩ := answer_eq_ok.1 hok
    exact ⟨rest, rfl, hf, (restFault?_eq_none.1 hfault).imp_right fun ⟨h, hd⟩ => ⟨h, hd, ht h hd⟩⟩
  · have := split_frames hf torn_nil
    rwa [List.append_nil] at this
  · have h1 := seven_le_headerLength hd
    have h2 := headerLength_le_frameLength hd
    obtain ⟨-, -, -, -, -, -, -, -, -, -, h3, -, -⟩ := header?_eq_some.1 hd
    refine ⟨h2, ?_, by omega, payload_eq_slice h data, ?_⟩
    · rw [List.length_drop]
      omega
    · rw [AudioStream.payload, List.length_drop, List.length_take]

/-- A frame of nine bytes, its header without a checksum. -/
def plainFrame : Bytes := [0xFF, 0xF1, 0x4C, 0x80, 0x01, 0x3F, 0xFC, 0x21, 0x10]

/-- A frame of ten bytes, its header with a checksum. -/
def checkedFrame : Bytes := [0xFF, 0xF0, 0x4C, 0x80, 0x01, 0x5F, 0xFC, 0xAB, 0xCD, 0x21]

theorem isFrame_examples : ∀ frame ∈ [plainFrame, checkedFrame], IsFrame frame := by
  simp only [List.forall_mem_cons]
  exact ⟨⟨⟨2, 3, 2, 7, 9⟩, rfl, rfl⟩, ⟨⟨2, 3, 2, 9, 10⟩, rfl, rfl⟩, fun _ hm => absurd hm List.not_mem_nil⟩

/-- Two frames in a row, with nothing left over, and the one byte behind the second one's checksum. -/
theorem split_into_frames_examples :
    split [plainFrame, checkedFrame].flatten = .ok [plainFrame, checkedFrame] ∧
      (∃ rest, [plainFrame, checkedFrame].flatten = [plainFrame, checkedFrame].flatten ++ rest ∧
        (rest = [] ∨ ∃ h, header? rest = .ok (some h) ∧ rest.length < h.frameLength)) ∧
      header? checkedFrame = .ok (some ⟨2, 3, 2, 9, 10⟩) ∧
      AudioStream.payload (some ⟨2, 3, 2, 9, 10⟩) checkedFrame = Bytes.slice 9 1 checkedFrame := by
  have hs := split_into_frames.2.1 _ isFrame_examples
  obtain ⟨rest, he, -, hrest⟩ := split_into_frames.1 _ _ hs
  have hd : header? checkedFrame = .ok (some ⟨2, 3, 2, 9, 10⟩) := rfl
  exact ⟨hs, ⟨rest, he, hrest⟩, hd, (split_into_frames.2.2 _ _ hd).2.2.2.1⟩

/-! ## A stream that is cut off -/

/-- The frames that lie wholly in the first `k` bytes. -/
def within : Nat → List Bytes → List Bytes
  | _, [] => []
  | k, frame :: frames => if frame.length ≤ k then frame :: within (k - frame.length) frames else []

theorem prefix_within {front : List Bytes} : ∀ {frames : List Bytes} {k : Nat},
    front <+: within k frames ↔ front <+: frames ∧ front.flatten.length ≤ k
  | [], k => by
    rw [within, List.prefix_nil]
    constructor
    · rintro rfl
      exact ⟨rfl, Nat.zero_le k⟩
    · exact And.left
  | frame :: frames, k => by
    rw [within]
    cases front with
    | nil => simp
    | cons first front =>
      by_cases hfits : frame.length ≤ k
      · rw [if_pos hfits, List.cons_prefix_cons, List.cons_prefix_cons, prefix_within, List.flatten_cons,
          List.length_append]
        constructor
        · rintro ⟨rfl, hp, hlen⟩
          exact ⟨⟨rfl, hp⟩, by omega⟩
        · rintro ⟨⟨rfl, hp⟩, hlen⟩
          exact ⟨rfl, hp, by omega⟩
      · rw [if_neg hfits, List.prefix_nil, List.cons_prefix_cons, List.flatten_cons, List.length_append]
        constructor
        · exact fun he => (List.cons_ne_nil _ _ he).elim
        · rintro ⟨⟨rfl, -⟩, hlen⟩
          omega

/-- The frames that lie wholly in the first `k` bytes are followed by one that does not. -/
theorem within_append (k : Nat) (frames : List Bytes) : ∃ later, frames = within k frames ++ later ∧
    ∀ next ∈ later.head?, k < (within k frames).flatten.length + next.length := by
  obtain ⟨later, he⟩ := (prefix_within.1 (List.prefix_refl (within k frames))).1
  refine ⟨later, he.symm, fun next hnext => Nat.lt_of_not_le fun hle => ?_⟩
  obtain ⟨rest, rfl⟩ := List.head?_eq_some_iff.1 hnext
  -- a further frame in the bytes would be one of theirs
  have hmore : within k frames ++ [next] <+: within k frames := by
    refine prefix_within.2 ⟨⟨rest, by rw [List.append_assoc]; exact he⟩, ?_⟩
    rw [List.flatten_append, List.length_append, List.flatten_singleton]
    exact hle
  have := hmore.length_le
  simp only [List.length_append, List.length_singleton] at this
  omega

theorem torn_take {next : Bytes} (hf : IsFrame next) {n : Nat} (hn : n < next.length) : Torn (next.take n) := by
  obtain ⟨h, hd, hlen⟩ := hf
  intro g hg
  have hwhole := header?_append hg (next.drop n)
  rw [List.take_append_drop, hd] at hwhole
  cases hwhole
  rw [List.length_take, hlen]
  omega

theorem restFault?_take {next : Bytes} {h : Header} (hd : header? next = .ok (some h)) {n : Nat} (hn : n ≤ next.length)
    (offset : Nat) : restFault? offset (next.take n) =
      if n = 0 ∨ h.headerLength ≤ n then none
      else some (if n = 1 then .missingSyncword offset
        else if n < 7 then .truncatedHeader n
        else .truncatedChecksum) := by
  have hseven := seven_le_headerLength hd
  rw [restFault?, header?_take hd hn]
  by_cases hzero : n = 0
  · rw [hzero]
    rfl
  · by_cases hone : n = 1
    · have hempty : (next.take n).isEmpty = false := by
        cases next with
        | nil => simp_all
        | cons => simp [hone]
      simp [hone ▸ hempty, hone, show ¬h.headerLength ≤ 1 by omega]
    · rw [if_neg (by omega)]
      by_cases hheader : n < 7
      · simp [hheader, hzero, hone, show ¬h.headerLength ≤ n by omega]
      · by_cases hchecksum : n < h.headerLength
        · simp [hheader, hchecksum, hzero, hone]
        · simp [hheader, hchecksum, Nat.le_of_not_lt hchecksum]

/-- The first bytes of a row of frames are the frames that lie wholly in them and the start of the next one. -/
theorem take_flatten {frames later : List Bytes} {k : Nat} (he : frames = within k frames ++ later) :
    frames.flatten.take k =
      (within k frames).flatten ++ later.flatten.take (k - (within k frames).flatten.length) := by
  have hlen := (prefix_within.1 (List.prefix_refl (within k frames))).2
  conv => lhs; rw [he]
  rw [List.flatten_append, List.take_append, List.take_of_length_le hlen]

/-- **A stream cut off in a frame.**  The whole frames are those that lie in the bytes before the cut.  They are the answer
when the cut is between two frames or behind the header of the next one.  A cut inside that header is an error, and the
frames before it are lost: a single byte of it is no syncword, and more are a header that is not all there. -/
theorem split_cut_stream {frames : List Bytes} (hf : ∀ frame ∈ frames, IsFrame frame) {k : Nat}
    (hk : k ≤ frames.flatten.length) :
    let whole := within k frames
    let cut := k - whole.flatten.length
    (∀ front, front <+: whole ↔ front <+: frames ∧ front.flatten.length ≤ k) ∧
      ((frames = whole ∧ cut = 0 ∧ split (frames.flatten.take k) = .ok whole) ∨
        ∃ next later h, frames = whole ++ next :: later ∧ header? next = .ok (some h) ∧ cut < next.length ∧
          split (frames.flatten.take k) =
            if cut = 0 ∨ h.headerLength ≤ cut then .ok whole
            else .error (if cut = 1 then .missingSyncword whole.flatten.length
              else if cut < 7 then .truncatedHeader cut
              else .truncatedChecksum)) := by
  intro whole cut
  have hinside := prefix_within.1 (List.prefix_refl whole)
  have hwhole : ∀ frame ∈ whole, IsFrame frame := fun frame hm => hf frame (hinside.1.subset hm)
  obtain ⟨later, he, hnext⟩ := within_append k frames
  refine ⟨fun front => prefix_within, ?_⟩
  cases later with
  | nil =>
    have hall : frames = whole := by rw [he, List.append_nil]
    have hcut : cut = 0 := Nat.sub_eq_zero_of_le (hall ▸ hk)
    refine .inl ⟨hall, hcut, ?_⟩
    rw [take_flatten he, List.flatten_nil, List.take_nil]
    exact split_frames hwhole torn_nil
  | cons next later =>
    have hframe : IsFrame next := hf next (by rw [he]; simp)
    have hcut : cut < next.length := by
      have : k < whole.flatten.length + next.length := hnext next rfl
      omega
    obtain ⟨h, hd, -⟩ := id hframe
    refine .inr ⟨next, later, h, he, hd, hcut, ?_⟩
    rw [take_flatten he, List.flatten_cons, List.take_append_of_le_length (Nat.le_of_lt hcut),
      split_frames hwhole (torn_take hframe hcut), answer, restFault?_take hd (Nat.le_of_lt hcut)]
    by_cases hheader : cut = 0 ∨ h.headerLength ≤ cut
    · rw [if_pos hheader, if_pos hheader]
    · rw [if_neg hheader, if_neg hheader]

/-- A cut behind the checksum's first byte. -/
theorem split_cut_checksum :
    (∀ frame ∈ [plainFrame, checkedFrame], IsFrame frame) ∧ 17 ≤ [plainFrame, checkedFrame].flatten.length ∧
      split ([plainFrame, checkedFrame].flatten.take 17) = .error .truncatedChecksum := by
  refine ⟨isFrame_examples, by decide, ?_⟩
  obtain ⟨-, ⟨hall, -⟩ | ⟨next, later, h, he, hd, -, hs⟩⟩ := split_cut_stream isFrame_examples (k := 17) (by decide)
  · cases hall
  · cases he
    cases hd
    exact hs

/-- A stream of two frames without the last three bytes, which are the last of a header and the two behind it: the first
frame is not among the answer. -/
theorem torn_header_loses_frames :
    (∀ frame ∈ [plainFrame, plainFrame], IsFrame frame) ∧ 15 ≤ [plainFrame, plainFrame].flatten.length ∧
      within 15 [plainFrame, plainFrame] = [plainFrame] ∧
      split ([plainFrame, plainFrame].flatten.take 15) = .error (.truncatedHeader 6) := by
  have hplain := isFrame_examples plainFrame List.mem_cons_self
  have hwhole : ∀ frame ∈ [plainFrame], IsFrame frame := by simpa using hplain
  have htorn : Torn (plainFrame.take 6) := torn_take hplain (by decide)
  exact ⟨by simpa using hplain, by decide, by decide, split_frames hwhole htorn⟩

end Adts
end Packager
