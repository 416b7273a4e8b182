import Mathlib.Data.List.Basic
import Packager.Avc.NalUnit
/-!
# Proofs.StartCodes — NAL units come back from the stream that they are framed in

The NAL units of a stream hold no start code and end in a byte other than zero (`NalUnit.Clean`).  Such units come back
when they stand behind start codes, whatever zeros stand before each code, whatever without a start code leads the stream
and however many zeros trail it (`AnnexB.split_framed`).
-/
namespace Packager

/-- Whether a byte string can be a unit of a stream: no start code is in it, and its last byte is not zero. -/
structure NalUnit.Clean (nal : NalUnit) : Prop where
  noCode : ¬[0, 0, 1] <:+: nal
  last : ∃ front b, nal = front ++ [b] ∧ b ≠ 0

theorem NalUnit.clean_iff {nal : NalUnit} :
    nal.Clean ↔ nal ≠ [] ∧ nal.getLast? ≠ some 0 ∧ ¬[0, 0, 1] <:+: nal := by
  constructor
  · rintro ⟨hcode, front, b, rfl, hb⟩
    exact ⟨by simp, by simpa using hb, hcode⟩
  · rintro ⟨hne, hlast, hcode⟩
    refine ⟨hcode, nal.dropLast, nal.getLast hne, (List.dropLast_append_getLast hne).symm, fun hz => hlast ?_⟩
    rw [List.getLast?_eq_some_getLast hne, hz]

namespace AnnexB

/-! ## What splitting leaves -/

theorem dropZeros_cases : ∀ bs : Bytes, dropZeros bs = [] ∨
    ∃ zeros b rest, bs = zeros ++ b :: rest ∧ b ≠ 0 ∧ dropZeros bs = b :: rest
  | [] => .inl rfl
  | b :: bs => by
    by_cases hb : b = 0
    · subst hb
      have hskip : dropZeros (0 :: bs) = dropZeros bs := rfl
      rw [hskip]
      rcases dropZeros_cases bs with h | ⟨zeros, c, rest, hbs, hc, h⟩
      · exact .inl h
      · exact .inr ⟨0 :: zeros, c, rest, by rw [hbs, List.cons_append], hc, h⟩
    · exact .inr ⟨[], b, bs, rfl, hb, by simp [dropZeros, hb]⟩

/-- Closing a unit adds what is left of it without its trailing zeros, if anything is. -/
theorem close_cases (reversed : Bytes) (units : List NalUnit) : close reversed units = units ∨
    ∃ front b zeros, reversed.reverse = front ++ [b] ++ zeros ∧ b ≠ 0 ∧
      close reversed units = (front ++ [b]) :: units := by
  unfold close
  rcases dropZeros_cases reversed with h | ⟨zeros, b, rest, hr, hb, h⟩
  · rw [h]
    exact .inl rfl
  · rw [h]
    refine .inr ⟨rest.reverse, b, zeros.reverse, ?_, hb, ?_⟩
    · rw [hr, List.reverse_append, List.reverse_cons]
    · simp only [List.reverse_cons]

/-- A unit that no start code begins in is clean once it is closed. -/
theorem clean_close {reversed rest : Bytes} {units : List NalUnit} (hu : ∀ u ∈ units, u.Clean)
    (h : ∀ pre post, reversed.reverse ++ rest = pre ++ 0 :: 0 :: 1 :: post → reversed.length ≤ pre.length) :
    ∀ u ∈ close reversed units, u.Clean := by
  rcases close_cases reversed units with he | ⟨front, b, zeros, hr, hb, he⟩
  · rwa [he]
  · rw [he]
    refine List.forall_mem_cons.2 ⟨⟨fun ⟨pre, post, hcode⟩ => ?_, front, b, rfl, hb⟩, hu⟩
    have hle := h pre (post ++ (zeros ++ rest)) (by rw [hr, ← hcode]; simp)
    have hlen := congrArg List.length hcode
    have hlen' := congrArg List.length hr
    simp only [List.length_append, List.length_reverse, List.length_cons, List.length_nil] at hlen hlen' hle
    omega

theorem clean_collect (reversed : Bytes) (units : List NalUnit) (bs : Bytes) (hu : ∀ u ∈ units, u.Clean)
    (h : ∀ pre post, reversed.reverse ++ bs = pre ++ 0 :: 0 :: 1 :: post → reversed.length ≤ pre.length) :
    ∀ u ∈ collect reversed units bs, u.Clean := by
  induction reversed, units, bs using collect.induct with
  | case1 reversed units rest ih =>
    rw [collect]
    exact ih (clean_close hu h) fun pre _ _ => Nat.zero_le pre.length
  | case2 reversed units b rest hno ih =>
    rw [collect.eq_2 reversed units b rest hno]
    refine ih hu fun pre post he => ?_
    have he' : reversed.reverse ++ b :: rest = pre ++ 0 :: 0 :: 1 :: post := by
      rw [← he, List.reverse_cons, List.append_assoc]
      rfl
    -- the byte that joins the unit begins no start code
    rcases Nat.lt_or_eq_of_le (h pre post he') with hlt | heq
    · exact hlt
    · obtain ⟨-, hcode⟩ := List.append_inj he' (by rw [List.length_reverse, heq])
      obtain ⟨hb, hrest⟩ := List.cons.inj hcode
      exact (hno post hb hrest).elim
  | case3 reversed units =>
    rw [collect]
    exact fun u hm => clean_close hu h u (List.mem_reverse.1 hm)

/-- **The units of a stream are clean.** -/
theorem clean_split (data : Bytes) : ∀ u ∈ split data, u.Clean := by
  unfold split
  cases afterStartCode? data with
  | none => exact fun u hm => absurd hm List.not_mem_nil
  | some rest => exact clean_collect [] [] rest (fun u hm => absurd hm List.not_mem_nil) fun pre _ _ => Nat.zero_le _

/-! ## Bytes without a start code -/

/-- A start code ends in a byte other than zero, so zeros behind a byte string bring none in. -/
theorem noCode_append_zeros {bs : Bytes} (h : ¬[0, 0, 1] <:+: bs) : ∀ n, ¬[0, 0, 1] <:+: bs ++ Bytes.zeros n
  | 0 => by rwa [show Bytes.zeros 0 = [] from rfl, List.append_nil]
  | n + 1 => by
    have hzeros : Bytes.zeros (n + 1) = Bytes.zeros n ++ [0] := List.replicate_succ'
    rw [hzeros, ← List.append_assoc, List.infix_concat_iff]
    rintro (⟨front, hf⟩ | hi)
    · have hlast := congrArg List.getLast? hf
      simp at hlast
    · exact noCode_append_zeros h n hi

/-- No start code begins at the first of some bytes without one, and none that ends in a code behind them. -/
theorem ne_code_of_noCode {b : UInt8} {body after : Bytes} (h : ¬[0, 0, 1] <:+: b :: body) (hb : b = 0) :
    body ≠ 0 :: 1 :: after ∧ ∀ rest, body ++ 0 :: 0 :: 1 :: rest ≠ 0 :: 1 :: after := by
  subst hb
  refine ⟨fun he => h ⟨[], after, by rw [he]; rfl⟩, fun rest he => ?_⟩
  rcases body with _ | ⟨x, _ | ⟨y, tail⟩⟩
  · simp at he
  · simp at he
  · simp only [List.cons_append, List.cons.injEq] at he
    obtain ⟨rfl, rfl, -⟩ := he
    exact h ⟨[], tail, rfl⟩

/-- Bytes without a start code join the unit, up to the start code behind them. -/
theorem collect_code : ∀ (body reversed : Bytes) (units : List NalUnit) (rest : Bytes), ¬[0, 0, 1] <:+: body →
    collect reversed units (body ++ 0 :: 0 :: 1 :: rest) = collect [] (close (body.reverse ++ reversed) units) rest
  | [], reversed, units, rest, _ => by
    rw [List.nil_append, collect]
    rfl
  | b :: body, reversed, units, rest, h => by
    rw [List.cons_append, collect.eq_2 reversed units b _ fun after hb => (ne_code_of_noCode h hb).2 _,
      collect_code body (b :: reversed) units rest fun hi => h (List.infix_cons hi), List.reverse_cons, List.append_assoc]
    rfl

theorem collect_end : ∀ (body reversed : Bytes) (units : List NalUnit), ¬[0, 0, 1] <:+: body →
    collect reversed units body = (close (body.reverse ++ reversed) units).reverse
  | [], reversed, units, _ => by rw [collect, List.reverse_nil, List.nil_append]
  | b :: body, reversed, units, h => by
    rw [collect.eq_2 reversed units b _ fun after hb => (ne_code_of_noCode h hb).1, collect_end body (b :: reversed) units fun hi => h (List.infix_cons hi),
      List.reverse_cons, List.append_assoc]
    rfl

theorem afterStartCode?_code : ∀ (body rest : Bytes), ¬[0, 0, 1] <:+: body →
    afterStartCode? (body ++ 0 :: 0 :: 1 :: rest) = some rest
  | [], rest, _ => by rw [List.nil_append, afterStartCode?]
  | b :: body, rest, h => by
    rw [List.cons_append, afterStartCode?.eq_2 b _ fun after hb => (ne_code_of_noCode h hb).2 _,
      afterStartCode?_code body rest fun hi => h (List.infix_cons hi)]

theorem afterStartCode?_end : ∀ body : Bytes, ¬[0, 0, 1] <:+: body → afterStartCode? body = none
  | [], _ => rfl
  | b :: body, h => by
    rw [afterStartCode?.eq_2 b _ fun after hb => (ne_code_of_noCode h hb).1, afterStartCode?_end body fun hi => h (List.infix_cons hi)]

/-! ## Framing -/

/-- A NAL unit behind a start code, with so many more zeros before the code. -/
def frameAfter (zeros : Nat) (nal : NalUnit) : Bytes := Bytes.zeros zeros ++ 0 :: 0 :: 1 :: nal

/-- NAL units in a stream, each with the number of zeros before its start code.  The stream opens with `lead` and closes
with so many zeros. -/
def framed (lead : Bytes) (units : List (Nat × NalUnit)) (trailing : Nat) : Bytes :=
  lead ++ (units.flatMap (fun u => frameAfter u.1 u.2) ++ Bytes.zeros trailing)

theorem close_of_clean {nal : NalUnit} (h : nal.Clean) (zeros : Nat) (units : List NalUnit) :
    close (nal ++ Bytes.zeros zeros).reverse units = nal :: units := by
  obtain ⟨front, b, rfl, hb⟩ := h.last
  have hdrop : dropZeros (front ++ [b] ++ Bytes.zeros zeros).reverse = (front ++ [b]).reverse := by
    rw [List.reverse_append, Bytes.zeros, List.reverse_replicate]
    unfold dropZeros
    rw [List.dropWhile_append_of_pos fun x hx => by simpa using List.eq_of_mem_replicate hx]
    simp [hb]
  unfold close
  rw [hdrop]
  simp

theorem collect_framed : ∀ (units : List (Nat × NalUnit)) (nal : NalUnit) (done : List NalUnit) (trailing : Nat),
    nal.Clean → (∀ u ∈ units, u.2.Clean) →
    collect [] done (framed nal units trailing) = done.reverse ++ nal :: units.map Prod.snd
  | [], nal, done, trailing, hn, _ => by
    have hframed : framed nal [] trailing = nal ++ Bytes.zeros trailing := rfl
    rw [hframed, collect_end _ [] done (noCode_append_zeros hn.noCode trailing), List.append_nil,
      close_of_clean hn trailing done, List.reverse_cons]
    rfl
  | u :: units, nal, done, trailing, hn, h => by
    obtain ⟨hu, hrest⟩ := List.forall_mem_cons.1 h
    have hframed : framed nal (u :: units) trailing =
        (nal ++ Bytes.zeros u.1) ++ 0 :: 0 :: 1 :: framed u.2 units trailing := by
      simp [framed, frameAfter, List.append_assoc]
    rw [hframed, collect_code _ [] done _ (noCode_append_zeros hn.noCode u.1), List.append_nil,
      close_of_clean hn u.1 done, collect_framed units u.2 (nal :: done) trailing hu hrest, List.reverse_cons,
      List.append_assoc]
    rfl

/-- **Clean units come back** from the stream that they are framed in. -/
theorem split_framed {lead : Bytes} (hlead : ¬[0, 0, 1] <:+: lead) {units : List (Nat × NalUnit)}
    (h : ∀ u ∈ units, u.2.Clean) (trailing : Nat) : split (framed lead units trailing) = units.map Prod.snd := by
  unfold split
  cases units with
  | nil =>
    have hframed : framed lead [] trailing = lead ++ Bytes.zeros trailing := rfl
    rw [hframed, afterStartCode?_end _ (noCode_append_zeros hlead trailing)]
    rfl
  | cons u units =>
    obtain ⟨hu, hrest⟩ := List.forall_mem_cons.1 h
    have hframed : framed lead (u :: units) trailing =
        (lead ++ Bytes.zeros u.1) ++ 0 :: 0 :: 1 :: framed u.2 units trailing := by
      simp [framed, frameAfter, List.append_assoc]
    rw [hframed, afterStartCode?_code _ _ (noCode_append_zeros hlead u.1)]
    exact collect_framed units u.2 [] trailing hu hrest

theorem join_eq_framed (nals : List NalUnit) : join nals = framed [] (nals.map (1, ·)) 0 := by
  unfold join framed
  rw [List.flatMap_map, List.nil_append]
  exact (List.append_nil _).symm

/-- Clean units come back from the stream in which each stands behind a four-byte start code. -/
theorem split_join {nals : List NalUnit} (h : ∀ u ∈ nals, u.Clean) : split (join nals) = nals := by
  rw [join_eq_framed, split_framed (by simp) (by simpa using h), List.map_map]
  exact List.map_id _

/-- **Splitting inverts framing.**  NAL units that are not empty, do not end in zero and hold no start code come back from
every stream in which they stand behind start codes: whatever without a start code leads the stream, however many zeros
stand before each code and however many trail.  The units of every stream are such ones, so that they come back when each
is put behind a four-byte start code. -/
theorem split_inverts_framing :
    (∀ (lead : Bytes) (units : List (Nat × NalUnit)) (trailing : Nat), ¬[0, 0, 1] <:+: lead →
      (∀ u ∈ units, u.2 ≠ [] ∧ u.2.getLast? ≠ some 0 ∧ ¬[0, 0, 1] <:+: u.2) →
      split (framed lead units trailing) = units.map Prod.snd) ∧
    ∀ data : Bytes, (∀ u ∈ split data, u ≠ [] ∧ u.getLast? ≠ some 0 ∧ ¬[0, 0, 1] <:+: u) ∧
      split (join (split data)) = split data := by
  refine ⟨fun lead units trailing hlead h => ?_, fun data => ⟨fun u hu => ?_, split_join (clean_split data)⟩⟩
  · exact split_framed hlead (fun u hu => NalUnit.clean_iff.2 (h u hu)) trailing
  · exact NalUnit.clean_iff.1 (clean_split data u hu)

/-- Zeros that lead into the first code, units that open like a code's end or its start, a code of five bytes and zeros at
the end. -/
theorem split_inverts_framing_zeros :
    (¬[0, 0, 1] <:+: ([9, 0, 0] : Bytes) ∧
      ∀ u ∈ [(0, [0, 1, 7]), (2, [0, 0, 2]), (1, [1])], u.2 ≠ [] ∧ u.2.getLast? ≠ some 0 ∧ ¬[0, 0, 1] <:+: (u.2 : NalUnit)) ∧
    split [9, 0, 0, 0, 0, 1, 0, 1, 7, 0, 0, 0, 0, 1, 0, 0, 2, 0, 0, 0, 1, 1, 0, 0] = [[0, 1, 7], [0, 0, 2], [1]] := by
  have hall : ¬[0, 0, 1] <:+: ([9, 0, 0] : Bytes) ∧
      ∀ u ∈ [(0, [0, 1, 7]), (2, [0, 0, 2]), (1, [1])],
        u.2 ≠ [] ∧ u.2.getLast? ≠ some 0 ∧ ¬[0, 0, 1] <:+: (u.2 : NalUnit) := by decide
  exact ⟨hall, split_inverts_framing.1 [9, 0, 0] [(0, [0, 1, 7]), (2, [0, 0, 2]), (1, [1])] 2 hall.1 hall.2⟩

end AnnexB
end Packager
