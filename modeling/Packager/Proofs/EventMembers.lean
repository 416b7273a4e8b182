import Mathlib.Tactic.Tauto
import Packager.Control.Event
/-!
# Proofs.EventMembers — an event says what its members say

Reading a map goes through its members in the order of their names and puts each field of the action into a draft
(`Draft.Takes`).  What a draft holds, written as members again, was read as just these members, so an event that was read
is written with members of the map and no others: nothing is changed, made up or brought into a range on the way
(`event_reads_back`).  The one value that is written in another form than it may be read in is a media kind, which may also
come as a map from its name.
-/
namespace Packager

namespace Data

/-- A number below a limit is read from itself only. -/
theorem natBelow_eq_ok {limit n : Nat} {expected : String} {d : Data} :
    natBelow limit expected d = .ok n ↔ d = .int n ∧ n < limit := by
  constructor
  · intro h
    unfold natBelow at h
    split at h
    · rename_i k
      split at h
      · rename_i hrange
        cases h
        have hk : (k.toNat : Int) = k := Int.toNat_of_nonneg hrange.1
        exact ⟨congrArg Data.int hk.symm, by omega⟩
      · cases h
    · cases h
  · rintro ⟨rfl, hlt⟩
    have hrange : 0 ≤ (n : Int) ∧ (n : Int) < limit := ⟨Int.natCast_nonneg n, Int.ofNat_lt.2 hlt⟩
    exact (if_pos hrange).trans (congrArg Except.ok (Int.toNat_natCast n))

theorem uint64_int {n : Nat} (h : n < UInt64.size) : uint64 (.int n) = .ok n := natBelow_eq_ok.2 ⟨rfl, h⟩

theorem uint32_int {n : Nat} (h : n < UInt32.size) : uint32 (.int n) = .ok n := natBelow_eq_ok.2 ⟨rfl, h⟩

/-- A text is read from itself only. -/
theorem textAs_eq_ok {expected s : String} {d : Data} : textAs expected d = .ok s ↔ d = .text s := by
  constructor
  · intro h
    unfold textAs at h
    split at h
    · cases h
      rfl
    · cases h
  · rintro rfl
    rfl

end Data

/-- What is read in two steps was read in both. -/
theorem ok_of_bind {ε α β : Type} {x : Except ε α} {f : α → Except ε β} {b : β} (h : x >>= f = .ok b) :
    ∃ a, x = .ok a ∧ f a = .ok b := by
  cases x with
  | error e => cases h
  | ok a => exact ⟨a, rfl, h⟩

namespace ControlEvent

/-! ## What one member puts into a draft -/

theorem kindNamed_eq_ok {name : String} {kind : Kind} : kindNamed name = .ok kind ↔ name = kind.name := by
  constructor
  · intro h
    unfold kindNamed at h
    split at h
    · cases h
      exact beq_iff_eq.1 ‹_›
    · split at h
      · cases h
        exact beq_iff_eq.1 ‹_›
      · cases h
  · rintro rfl
    cases kind <;> rfl

/-- What reading a member makes of a draft. -/
inductive Draft.Takes (draft : Draft) : String → Data → Draft → Prop where
  /-- A member that is no field of the action. -/
  | aside {name : String} {value : Data} : Takes draft name value draft
  | folder (text : String) : Takes draft "folder" (.text text) { draft with folder := some ⟨text⟩ }
  | baseName (text : String) : Takes draft "baseName" (.text text) { draft with baseName := some text }
  | seconds {n : Nat} (h : n < UInt64.size) : Takes draft "segDurInSec" (.int n) { draft with seconds := some n }
  | track {n : Nat} (h : n < UInt32.size) : Takes draft "id" (.int n) { draft with track := some n }
  | kind {value : Data} {kind : Kind} (h : ControlEvent.kind value = .ok kind) :
      Takes draft "kind" value { draft with kind := some kind }
  | kilobits {n : Nat} (h : n < UInt32.size) : Takes draft "bitrate" (.int n) { draft with kilobits := some n }

/-- The fields of the actions, the last one by what it is not. -/
theorem Action.eq_bitrate {action : Action} {name : String} (h : action.fields.contains name = true)
    (hfolder : name ≠ "folder") (hbase : name ≠ "baseName") (hseconds : name ≠ "segDurInSec") (hid : name ≠ "id")
    (hkind : name ≠ "kind") : name = "bitrate" := by
  cases action <;> simp_all [fields]

theorem Draft.takes_of_set {action : Action} {draft d : Draft} {name : String} {value : Data}
    (h : draft.set action name value = .ok d) : draft.Takes name value d := by
  unfold Draft.set at h
  simp only [beq_iff_eq] at h
  split at h
  · cases h
    exact .aside
  rename_i hfield
  split at h
  case isTrue hname =>
    obtain ⟨text, hvalue, hd⟩ := ok_of_bind h
    cases hd
    rw [hname, Data.textAs_eq_ok.1 hvalue]
    exact .folder text
  rename_i hfolder
  split at h
  case isTrue hname =>
    obtain ⟨text, hvalue, hd⟩ := ok_of_bind h
    cases hd
    rw [hname, Data.textAs_eq_ok.1 hvalue]
    exact .baseName text
  rename_i hbase
  split at h
  case isTrue hname =>
    obtain ⟨n, hvalue, hd⟩ := ok_of_bind h
    cases hd
    obtain ⟨rfl, hn⟩ := Data.natBelow_eq_ok.1 hvalue
    exact hname ▸ .seconds hn
  rename_i hseconds
  split at h
  case isTrue hname =>
    obtain ⟨n, hvalue, hd⟩ := ok_of_bind h
    cases hd
    obtain ⟨rfl, hn⟩ := Data.natBelow_eq_ok.1 hvalue
    exact hname ▸ .track hn
  rename_i hid
  split at h
  case isTrue hname =>
    obtain ⟨kind, hvalue, hd⟩ := ok_of_bind h
    cases hd
    exact hname ▸ .kind hvalue
  rename_i hkind
  obtain ⟨n, hvalue, hd⟩ := ok_of_bind h
  cases hd
  obtain ⟨rfl, hn⟩ := Data.natBelow_eq_ok.1 hvalue
  rw [Action.eq_bitrate (by simpa using hfield) hfolder hbase hseconds hid hkind]
  exact .kilobits hn

/-! ## What a draft holds -/

/-- The fields of a draft as members, in the order in which they are written. -/
def Draft.members (d : Draft) : List (String × Data) :=
  (d.folder.map fun folder => ("folder", .text folder.text)).toList ++
  (d.baseName.map fun baseName => ("baseName", .text baseName)).toList ++
  (d.seconds.map fun n => ("segDurInSec", .int n)).toList ++
  (d.track.map fun n => ("id", .int n)).toList ++
  (d.kind.map fun kind => ("kind", .text kind.name)).toList ++
  (d.kilobits.map fun n => ("bitrate", .int n)).toList

/-- Whether the numbers of a draft are of the widths that they are read with. -/
structure Draft.InRange (d : Draft) : Prop where
  seconds : ∀ n ∈ d.seconds, n < UInt64.size
  track : ∀ n ∈ d.track, n < UInt32.size
  kilobits : ∀ n ∈ d.kilobits, n < UInt32.size

/-- **A draft holds what was read**: each step adds the member that it took, as it is, when kinds are given by name. -/
theorem Draft.Takes.members {draft d : Draft} {name : String} {value : Data} (h : draft.Takes name value d)
    (hkind : name = "kind" → ∃ text, value = .text text) : ∀ m ∈ d.members, m ∈ draft.members ∨ m = (name, value) := by
  intro m hm
  cases h with
  | aside => exact .inl hm
  | kind h =>
    obtain ⟨text, rfl⟩ := hkind rfl
    rw [kindNamed_eq_ok.1 h]
    simp only [Draft.members, List.mem_append, Option.map_some, Option.toList_some, List.mem_singleton] at hm ⊢
    tauto
  | folder | baseName | seconds | track | kilobits =>
    simp only [Draft.members, List.mem_append, Option.map_some, Option.toList_some, List.mem_singleton] at hm ⊢
    tauto

theorem Draft.Takes.inRange {draft d : Draft} {name : String} {value : Data} (h : draft.Takes name value d)
    (hr : draft.InRange) : d.InRange := by
  obtain ⟨hseconds, htrack, hkilobits⟩ := hr
  cases h with
  | aside | folder | baseName | kind => exact ⟨hseconds, htrack, hkilobits⟩
  | seconds hn => exact ⟨fun m hm => Option.some.inj hm ▸ hn, htrack, hkilobits⟩
  | track hn => exact ⟨hseconds, fun m hm => Option.some.inj hm ▸ hn, hkilobits⟩
  | kilobits hn => exact ⟨hseconds, htrack, fun m hm => Option.some.inj hm ▸ hn⟩

/-- What all members together make of a draft. -/
theorem Draft.takes_all {action : Action} : ∀ (members : List (String × Data)) {draft d : Draft},
    members.foldlM (fun acc m => Draft.set action acc m.1 m.2) draft = .ok d →
    (∀ value, ("kind", value) ∈ members → ∃ text, value = .text text) → draft.InRange →
    d.InRange ∧ ∀ m ∈ d.members, m ∈ draft.members ∨ m ∈ members
  | [], draft, d, h, _, hr => by
    cases h
    exact ⟨hr, fun m hm => .inl hm⟩
  | (name, value) :: members, draft, d, h, hkind, hr => by
    rw [List.foldlM_cons] at h
    obtain ⟨next, hset, hrest⟩ := ok_of_bind h
    have htakes := Draft.takes_of_set hset
    obtain ⟨hd, hmembers⟩ := takes_all members hrest (fun value hm => hkind value (List.mem_cons_of_mem _ hm))
      (htakes.inRange hr)
    refine ⟨hd, fun m hm => ?_⟩
    rcases hmembers m hm with hm | hm
    · rcases htakes.members (fun hname => hkind value (hname ▸ List.mem_cons_self)) m hm with hm | rfl
      · exact .inl hm
      · exact .inr List.mem_cons_self
    · exact .inr (List.mem_cons_of_mem _ hm)

/-! ## Events -/

/-- The draft of an event. -/
def draft : ControlEvent → Draft
  | configure folder baseName seconds => ⟨some folder, some baseName, some seconds, none, none, none⟩
  | addSegmenter track kind => ⟨none, none, none, some track, some kind, none⟩
  | removeSegmenter track => ⟨none, none, none, some track, none, none⟩
  | setBitrate track kilobits => ⟨none, none, none, some track, none, some kilobits⟩

theorem encode_eq (e : ControlEvent) : e.encode = .map (("action", .text e.action.name) :: e.draft.members) := by
  cases e <;> rfl

theorem Action.decode_eq_ok {d : Data} {action : Action} : Action.decode d = .ok action ↔ d = .text action.name := by
  constructor
  · intro h
    unfold decode at h
    split at h
    · rename_i name
      cases hfind : all.find? (·.name == name) with
      | none =>
        rw [hfind] at h
        cases h
      | some found =>
        rw [hfind] at h
        cases h
        have hname : action.name = name := by simpa using List.find?_some hfind
        rw [hname]
    · cases h
  · rintro rfl
    cases action <;> rfl

theorem required_eq_ok {α : Type} {name : String} {x : Option α} {a : α} (h : Data.required name x = .ok a) :
    x = some a := by
  cases x with
  | none => cases h
  | some b => rw [Except.ok.inj h]

/-- Whether the fields of a draft are some of another's. -/
structure Draft.Within (d d' : Draft) : Prop where
  folder : d.folder = none ∨ d.folder = d'.folder
  baseName : d.baseName = none ∨ d.baseName = d'.baseName
  seconds : d.seconds = none ∨ d.seconds = d'.seconds
  track : d.track = none ∨ d.track = d'.track
  kind : d.kind = none ∨ d.kind = d'.kind
  kilobits : d.kilobits = none ∨ d.kilobits = d'.kilobits

theorem Draft.Within.members {d d' : Draft} (h : d.Within d') : ∀ m ∈ d.members, m ∈ d'.members := by
  have field : ∀ {α : Type} {x y : Option α} (f : α → String × Data), x = none ∨ x = y →
      ∀ m ∈ (x.map f).toList, m ∈ (y.map f).toList := by
    rintro α x y f (rfl | rfl) m hm
    · exact absurd hm List.not_mem_nil
    · exact hm
  intro m hm
  simp only [Draft.members, List.mem_append] at hm ⊢
  exact hm.imp (Or.imp (Or.imp (Or.imp (Or.imp (field _ h.folder m) (field _ h.baseName m)) (field _ h.seconds m))
    (field _ h.track m)) (field _ h.kind m)) (field _ h.kilobits m)

theorem Draft.Within.inRange {d d' : Draft} (h : d.Within d') (hr : d'.InRange) : d.InRange := by
  have field : ∀ {x y : Option Nat} {limit : Nat}, x = none ∨ x = y → (∀ n ∈ y, n < limit) → ∀ n ∈ x, n < limit := by
    rintro x y limit (rfl | rfl) hy n hn
    · cases hn
    · exact hy n hn
  exact ⟨field h.seconds hr.seconds, field h.track hr.track, field h.kilobits hr.kilobits⟩

/-- **An event is of its action, and has no field but those of its draft.** -/
theorem Draft.finish_eq_ok {action : Action} {d : Draft} {e : ControlEvent} (h : d.finish action = .ok e) :
    e.action = action ∧ e.draft.Within d := by
  have given : ∀ {α : Type} {name : String} {x : Option α} {a : α}, Data.required name x = .ok a →
      some a = none ∨ some a = x := fun hx => .inr (required_eq_ok hx).symm
  cases action with
  | configure =>
    obtain ⟨folder, hfolder, h⟩ := ok_of_bind h
    obtain ⟨baseName, hbase, h⟩ := ok_of_bind h
    obtain ⟨seconds, hseconds, h⟩ := ok_of_bind h
    cases h
    exact ⟨rfl, given hfolder, given hbase, given hseconds, .inl rfl, .inl rfl, .inl rfl⟩
  | addSegmenter =>
    obtain ⟨track, htrack, h⟩ := ok_of_bind h
    obtain ⟨kind, hkind, h⟩ := ok_of_bind h
    cases h
    exact ⟨rfl, .inl rfl, .inl rfl, .inl rfl, given htrack, given hkind, .inl rfl⟩
  | removeSegmenter =>
    obtain ⟨track, htrack, h⟩ := ok_of_bind h
    cases h
    exact ⟨rfl, .inl rfl, .inl rfl, .inl rfl, given htrack, .inl rfl, .inl rfl⟩
  | setBitrate =>
    obtain ⟨track, htrack, h⟩ := ok_of_bind h
    obtain ⟨kilobits, hkilobits, h⟩ := ok_of_bind h
    cases h
    exact ⟨rfl, .inl rfl, .inl rfl, .inl rfl, given htrack, .inl rfl, given hkilobits⟩

theorem decodeFields_map (action : Action) (members : List (String × Data)) : decodeFields action (.map members) =
    members.foldlM (fun acc m => Draft.set action acc m.1 m.2) .empty >>= Draft.finish action := rfl

/-- **Reading the fields of an action** takes them from the members. -/
theorem told_of_decodeFields {action : Action} {members : List (String × Data)} {e : ControlEvent}
    (h : decodeFields action (.map members) = .ok e)
    (hkind : ∀ value, ("kind", value) ∈ members → ∃ text, value = .text text) :
    e.action = action ∧ e.draft.InRange ∧ ∀ m ∈ e.draft.members, m ∈ members := by
  rw [decodeFields_map] at h
  obtain ⟨d, hd, hfinish⟩ := ok_of_bind h
  obtain ⟨hrange, hmembers⟩ := Draft.takes_all members hd hkind ⟨nofun, nofun, nofun⟩
  obtain ⟨haction, hwithin⟩ := Draft.finish_eq_ok hfinish
  refine ⟨haction, hwithin.inRange hrange, fun m hm => ?_⟩
  exact (hmembers m (hwithin.members m hm)).resolve_left List.not_mem_nil

/-- A map is read by its action, and then by the other members in the order of their names. -/
theorem decode_map (members : List (String × Data)) : decode (.map members) =
    match members.find? (·.1 == "action") with
    | none => .error (.missingField "action")
    | some (_, tag) => Action.decode tag >>= fun action =>
      decodeFields action (.map (sortMembers (members.filter (·.1 != "action")))) := rfl

/-- **Reading a map takes members of it**: what the event says stands in the map as it is, when kinds are given by name. -/
theorem told_of_parse {members : List (String × Data)} {e : ControlEvent} (h : parse (.map members) = .ok e)
    (hkind : ∀ value, ("kind", value) ∈ members → ∃ text, value = .text text) :
    e.draft.InRange ∧ ∀ m ∈ ("action", .text e.action.name) :: e.draft.members, m ∈ members := by
  have hdecode : decode (.map members) = .ok e := by
    unfold parse at h
    cases hd : decode (.map members) with
    | error mismatch =>
      rw [hd] at h
      cases h
    | ok read =>
      rw [hd] at h
      exact congrArg _ (Except.ok.inj h)
  rw [decode_map] at hdecode
  split at hdecode
  · cases hdecode
  · rename_i name tag hfind
    obtain ⟨action, htag, hfields⟩ := ok_of_bind hdecode
    have hname : name = "action" := by simpa using List.find?_some hfind
    have hothers : ∀ m ∈ sortMembers (members.filter (·.1 != "action")), m ∈ members := fun m hm =>
      (List.mem_filter.1 (List.mem_mergeSort.1 hm)).1
    obtain ⟨rfl, hrange, hmembers⟩ := told_of_decodeFields hfields fun value hm => hkind value (hothers _ hm)
    refine ⟨hrange, fun m hm => ?_⟩
    rcases List.mem_cons.1 hm with rfl | hm
    · rw [← hname, ← Action.decode_eq_ok.1 htag]
      exact List.mem_of_find?_eq_some hfind
    · exact hothers m (hmembers m hm)

/-! ## Reading what was written -/

section
variable {draft : Draft} {n : Nat} {value : Data}

/-- A number is read by the field that takes it. -/
theorem set_seconds (h : value.uint64 = .ok n) :
    draft.set .configure "segDurInSec" value = .ok { draft with seconds := some n } := by
  show (value.uint64.map fun n => { draft with seconds := some n }) = _
  rw [h]
  rfl

theorem set_id {action : Action} (haction : action ≠ .configure) (h : value.uint32 = .ok n) :
    draft.set action "id" value = .ok { draft with track := some n } := by
  have hset : draft.set action "id" value = value.uint32.map fun n => { draft with track := some n } := by
    cases action with
    | configure => exact absurd rfl haction
    | addSegmenter | removeSegmenter | setBitrate => rfl
  rw [hset, h]
  rfl

theorem set_bitrate (h : value.uint32 = .ok n) :
    draft.set .setBitrate "bitrate" value = .ok { draft with kilobits := some n } := by
  show (value.uint32.map fun n => { draft with kilobits := some n }) = _
  rw [h]
  rfl

end

theorem set_folder (draft : Draft) (text : String) :
    draft.set .configure "folder" (.text text) = .ok { draft with folder := some ⟨text⟩ } := rfl

theorem set_baseName (draft : Draft) (text : String) :
    draft.set .configure "baseName" (.text text) = .ok { draft with baseName := some text } := rfl

theorem set_kind (draft : Draft) (kind : Kind) :
    draft.set .addSegmenter "kind" (.text kind.name) = .ok { draft with kind := some kind } := by
  cases kind <;> rfl

theorem takes_cons {action : Action} {draft d : Draft} {name : String} {value : Data}
    (h : draft.set action name value = .ok d) (members : List (String × Data)) :
    ((name, value) :: members).foldlM (fun acc m => Draft.set action acc m.1 m.2) draft =
      members.foldlM (fun acc m => Draft.set action acc m.1 m.2) d := by
  rw [List.foldlM_cons, h]
  rfl

/-- **The fields of an event, in the order of their names, lead to its draft.** -/
theorem takes_members {e : ControlEvent} (h : e.draft.InRange) :
    (sortMembers e.draft.members).foldlM (fun acc m => Draft.set e.action acc m.1 m.2) .empty = .ok e.draft := by
  cases e with
  | configure folder baseName seconds =>
    have hsort : sortMembers (draft (.configure folder baseName seconds)).members =
        [("baseName", .text baseName), ("folder", .text folder.text), ("segDurInSec", .int seconds)] := by
      simp +decide [sortMembers, draft, Draft.members, List.mergeSort, List.MergeSort.Internal.splitInTwo]
    rw [hsort, action, takes_cons (set_baseName .empty baseName), takes_cons (set_folder _ folder.text),
      takes_cons (set_seconds (Data.uint64_int (h.seconds seconds rfl)))]
    rfl
  | addSegmenter track kind =>
    have hsort : sortMembers (draft (.addSegmenter track kind)).members =
        [("id", .int track), ("kind", .text kind.name)] := by
      simp +decide [sortMembers, draft, Draft.members, List.mergeSort, List.MergeSort.Internal.splitInTwo]
    rw [hsort, action, takes_cons (set_id (by decide) (Data.uint32_int (h.track track rfl))), takes_cons (set_kind _ kind)]
    rfl
  | removeSegmenter track =>
    have hsort : sortMembers (draft (.removeSegmenter track)).members = [("id", .int track)] := by
      simp [sortMembers, draft, Draft.members]
    rw [hsort, action, takes_cons (set_id (by decide) (Data.uint32_int (h.track track rfl)))]
    rfl
  | setBitrate track kilobits =>
    have hsort : sortMembers (draft (.setBitrate track kilobits)).members =
        [("bitrate", .int kilobits), ("id", .int track)] := by
      simp +decide [sortMembers, draft, Draft.members, List.mergeSort, List.MergeSort.Internal.splitInTwo]
    rw [hsort, action, takes_cons (set_bitrate (Data.uint32_int (h.kilobits kilobits rfl))),
      takes_cons (set_id (by decide) (Data.uint32_int (h.track track rfl)))]
    rfl

theorem finish_draft (e : ControlEvent) : e.draft.finish e.action = .ok e := by
  cases e <;> rfl

/-- **What is written reads as it was.** -/
theorem parse_encode {e : ControlEvent} (h : e.draft.InRange) : parse e.encode = .ok e := by
  have hothers : ∀ m ∈ e.draft.members, (m.1 != "action") = true := by
    cases e <;> simp [draft, Draft.members]
  have hdecode : decode e.encode = .ok e := by
    rw [encode_eq, decode_map, List.find?_cons_of_pos rfl, List.filter_cons_of_neg (by simp),
      List.filter_eq_self.2 hothers]
    dsimp only
    rw [Action.decode_eq_ok.2 rfl]
    show decodeFields e.action (.map (sortMembers e.draft.members)) = .ok e
    rw [decodeFields_map, takes_members h]
    exact finish_draft e
  unfold parse
  rw [hdecode]
  rfl

/-- **An event and its members tell the same.**  An event whose numbers are of their widths is read from what is written
of it.  An event that is read from a map in which kinds are given by name, whatever else the map holds and in whatever
order, is written with members of the map only, each with the value that it has there; its numbers are of their widths, so
it reads back once more. -/
theorem event_reads_back :
    (∀ e : ControlEvent, e.draft.InRange → parse e.encode = .ok e) ∧
    ∀ (members : List (String × Data)) (e : ControlEvent), parse (.map members) = .ok e →
      (∀ value, ("kind", value) ∈ members → ∃ text, value = .text text) →
      e.draft.InRange ∧ ∃ told, e.encode = .map told ∧ ∀ m ∈ told, m ∈ members := by
  refine ⟨fun e h => parse_encode h, fun members e h hkind => ?_⟩
  obtain ⟨hrange, htold⟩ := told_of_parse h hkind
  exact ⟨hrange, _, e.encode_eq, htold⟩

/-- A request for a video track with a member that no event has. -/
def strayMembers : List (String × Data) :=
  [("note", .list [.null]), ("kind", .text "video"), ("action", .text "addSegmenter"), ("id", .int 7)]

theorem event_reads_back_strayMembers :
    parse (encode (.addSegmenter 7 .video)) = .ok (.addSegmenter 7 .video) ∧
    parse (.map strayMembers) = .ok (.addSegmenter 7 .video) ∧
    ∃ told, encode (.addSegmenter 7 .video) = .map told ∧ ∀ m ∈ told, m ∈ strayMembers := by
  have hrange : (draft (.addSegmenter 7 .video)).InRange := ⟨nofun, fun n hn => Option.some.inj hn ▸ by decide, nofun⟩
  have hdecode : decode (.map strayMembers) = .ok (.addSegmenter 7 .video) := by
    have hsort : sortMembers (strayMembers.filter (·.1 != "action")) =
        [("id", .int 7), ("kind", .text "video"), ("note", .list [.null])] := by
      simp +decide [sortMembers, strayMembers, List.mergeSort, List.MergeSort.Internal.splitInTwo]
    rw [decode_map, hsort]
    show decodeFields .addSegmenter (.map [("id", .int 7), ("kind", .text "video"), ("note", .list [.null])]) = _
    have hid : Data.uint32 (.int 7) = .ok 7 := Data.uint32_int (show 7 < UInt32.size by decide)
    rw [decodeFields_map, takes_cons (set_id (show Action.addSegmenter ≠ .configure by decide) hid)]
    rfl
  have hparse : parse (.map strayMembers) = .ok (.addSegmenter 7 .video) := by
    unfold parse
    rw [hdecode]
    rfl
  obtain ⟨hback, htold⟩ := event_reads_back
  refine ⟨hback _ hrange, hparse, (htold strayMembers _ hparse fun value hvalue => ?_).2⟩
  have hvalue : value = .text "video" := by simpa [strayMembers] using hvalue
  exact ⟨"video", hvalue⟩

end ControlEvent
end Packager
