import FlexRan.App.RecorderFile

/-!
# Equality of recorded data

Records are compared by hand: field by field, and each message through its serialization.  For the
statistics report of a UE the serialization is compared with a second one of the same report, so
that the reports of the other record play no role.  A dump is compared with `==` of the standard
containers, which compare their elements in order.

## Main definitions

* `BsDump.equals`: `operator==` of records.
* `BsDump.withoutReports`: what it compares.
* `dumpEquals`: `==` of two dumps.
* `Protobuf.InjectiveOn`: different messages have different serializations.
-/
namespace FlexRan.App.Log

open Lib Protocol

variable {α β μ : Type}

/-! ## Comparison -/

/-- The loop over the UEs of both records. -/
def sameUes (pb : Protobuf) : List MacHarqInfo → List MacHarqInfo → Bool
  | [], _ => true
  | _ :: _, [] => false
  | it :: its, oit :: oits =>
    if it.harqInfos ≠ oit.harqInfos then false
    -- both texts are those of the report of the first record
    else match pb.ueStatsReport.serialize it.macStatsReport,
        pb.ueStatsReport.serialize it.macStatsReport with
      | some ss1, some ss2 => if ss1 ≠ ss2 then false else sameUes pb its oits
      | _, _ => false

/-- The comparison of the configurations. -/
def sameConfigs (pb : Protobuf) (a b : BsDump) : Option Bool := do
  let sec1 ← pb.enbConfigReply.serialize a.enbConfig
  let sec2 ← pb.enbConfigReply.serialize b.enbConfig
  let suc1 ← pb.ueConfigReply.serialize a.ueConfig
  let suc2 ← pb.ueConfigReply.serialize b.ueConfig
  let slc1 ← pb.lcConfigReply.serialize a.lcConfig
  let slc2 ← pb.lcConfigReply.serialize b.lcConfig
  return sec1 == sec2 && suc1 == suc2 && slc1 == slc2

/-- `operator==`. -/
def BsDump.equals (pb : Protobuf) (a b : BsDump) : Bool :=
  if a.time ≠ b.time then false
  else if a.ueMacHarqInfos.length ≠ b.ueMacHarqInfos.length then false
  else if sameUes pb a.ueMacHarqInfos b.ueMacHarqInfos then (sameConfigs pb a b).getD false
  else false

/-- `==` of sequences: the same size, and equal elements in order. -/
def rangeEquals (eq : α → α → Bool) (a b : List α) : Bool :=
  a.length == b.length && (a.zip b).all fun p => eq p.1 p.2

def chunkEquals (pb : Protobuf) (a b : Chunk) : Bool :=
  rangeEquals (fun e f => e.1 == f.1 && e.2.equals pb f.2) a.toList b.toList

def dumpEquals (pb : Protobuf) (v w : List Chunk) : Bool := rangeEquals (chunkEquals pb) v w

/-! ## What is compared -/

/-- The record without the statistics reports of its UEs. -/
def BsDump.withoutReports (bd : BsDump) : BsDump :=
  { bd with ueMacHarqInfos := bd.ueMacHarqInfos.map fun ue => { ue with macStatsReport := {} } }

def BsDump.reports (bd : BsDump) : List FlexUeStatsReport :=
  bd.ueMacHarqInfos.map MacHarqInfo.macStatsReport

/-- All records of a dump, in order. -/
def records (v : List Chunk) : List (List (UInt64 × BsDump)) := v.map fun chunk => chunk.toList

/-- A function on the records of a dump. -/
def onRecords (f : BsDump → β) (v : List Chunk) : List (List (UInt64 × β)) :=
  (records v).map fun chunk => chunk.map fun e => (e.1, f e.2)

/-- The messages are serialized, different ones to different texts. -/
structure MessageCodec.InjectiveOn (c : MessageCodec μ) (messages : Set μ) : Prop where
  succeeds : ∀ m ∈ messages, ∃ bytes, c.serialize m = some bytes
  injective : Set.InjOn c.serialize messages

/-- The serialization of the messages of some records. -/
structure Protobuf.InjectiveOn (pb : Protobuf) (S : Set BsDump) : Prop where
  enbConfig : pb.enbConfigReply.InjectiveOn (BsDump.enbConfig '' S)
  ueConfig : pb.ueConfigReply.InjectiveOn (BsDump.ueConfig '' S)
  lcConfig : pb.lcConfigReply.InjectiveOn (BsDump.lcConfig '' S)
  ueStats : pb.ueStatsReport.InjectiveOn { m | ∃ bd ∈ S, m ∈ bd.reports }

section Comparison

variable {pb : Protobuf} {S : Set BsDump} {a b : BsDump} {v w : List Chunk}

theorem sameUes_iff {its oits : List MacHarqInfo} (hlength : its.length = oits.length)
    (h : ∀ ue ∈ its, ∃ bytes, pb.ueStatsReport.serialize ue.macStatsReport = some bytes) :
    sameUes pb its oits = true ↔
      its.map MacHarqInfo.harqInfos = oits.map MacHarqInfo.harqInfos := by
  induction its generalizing oits with
  | nil =>
    obtain rfl := List.length_eq_zero_iff.mp hlength.symm
    exact iff_of_true rfl rfl
  | cons it its ih =>
    obtain ⟨oit, oits, rfl⟩ := List.exists_cons_of_length_eq_add_one hlength.symm
    obtain ⟨bytes, hbytes⟩ := h it (by simp)
    have hrest := ih (Nat.succ.inj hlength) fun ue hue => h ue (List.mem_cons_of_mem _ hue)
    rw [sameUes, hbytes, List.map_cons, List.map_cons, List.cons.injEq, ← hrest]
    by_cases hharq : it.harqInfos = oit.harqInfos
    · simp [hharq]
    · simp [hharq]

/-- Two functions that tell the elements apart tell the lists apart. -/
theorem eq_of_map_eq {γ : Type} {f : α → β} {g : α → γ}
    (h : ∀ x y, f x = f y → g x = g y → x = y) {x y : List α} (hf : x.map f = y.map f)
    (hg : x.map g = y.map g) : x = y := by
  induction x generalizing y with
  | nil => exact (List.map_eq_nil_iff.mp hf.symm).symm
  | cons c x ih =>
    cases y with
    | nil => exact absurd hf (by simp)
    | cons d y =>
      obtain ⟨hfc, hf⟩ := List.cons.inj hf
      obtain ⟨hgc, hg⟩ := List.cons.inj hg
      rw [h c d hfc hgc, ih hf hg]

theorem map_withoutReport_inj {l l' : List MacHarqInfo} :
    l.map (fun ue => { ue with macStatsReport := {} }) =
        l'.map (fun ue => { ue with macStatsReport := {} }) ↔
      l.map MacHarqInfo.harqInfos = l'.map MacHarqInfo.harqInfos := by
  have hforget : (fun ue : MacHarqInfo => { ue with macStatsReport := {} }) =
      MacHarqInfo.mk {} ∘ MacHarqInfo.harqInfos := rfl
  have hmk : Function.Injective (MacHarqInfo.mk {}) := fun x y h => (MacHarqInfo.mk.inj h).2
  rw [hforget, ← List.map_map, ← List.map_map, (List.map_injective_iff.mpr hmk).eq_iff]

theorem withoutReports_ext_iff : a.withoutReports = b.withoutReports ↔
    a.time = b.time ∧ a.enbConfig = b.enbConfig ∧ a.ueConfig = b.ueConfig ∧
      a.lcConfig = b.lcConfig ∧ a.ueMacHarqInfos.map MacHarqInfo.harqInfos =
        b.ueMacHarqInfos.map MacHarqInfo.harqInfos := by
  rw [BsDump.withoutReports, BsDump.withoutReports, BsDump.mk.injEq, map_withoutReport_inj]

/-- The record is what is compared, and the reports. -/
theorem eq_iff_withoutReports :
    a = b ↔ a.withoutReports = b.withoutReports ∧ a.reports = b.reports := by
  constructor
  · rintro rfl
    exact ⟨rfl, rfl⟩
  · rw [withoutReports_ext_iff]
    rintro ⟨⟨htime, henb, hue, hlc, hharq⟩, hreports⟩
    have hues : a.ueMacHarqInfos = b.ueMacHarqInfos :=
      eq_of_map_eq (fun x y hm hh => by cases x; cases y; exact congrArg₂ _ hm hh) hreports hharq
    cases a
    cases b
    simp_all

theorem MessageCodec.InjectiveOn.beq_iff {c : MessageCodec μ} {messages : Set μ}
    (h : c.InjectiveOn messages) {m n : μ} (hm : m ∈ messages) (hn : n ∈ messages)
    {x y : List UInt8} (hx : c.serialize m = some x) (hy : c.serialize n = some y) :
    (x == y) = true ↔ m = n := by
  rw [beq_iff_eq, ← h.injective.eq_iff hm hn, hx, hy, Option.some.injEq]

theorem sameConfigs_iff (h : pb.InjectiveOn S) (ha : a ∈ S) (hb : b ∈ S) :
    (sameConfigs pb a b).getD false = true ↔
      a.enbConfig = b.enbConfig ∧ a.ueConfig = b.ueConfig ∧ a.lcConfig = b.lcConfig := by
  have haenb := Set.mem_image_of_mem BsDump.enbConfig ha
  have hbenb := Set.mem_image_of_mem BsDump.enbConfig hb
  have haue := Set.mem_image_of_mem BsDump.ueConfig ha
  have hbue := Set.mem_image_of_mem BsDump.ueConfig hb
  have halc := Set.mem_image_of_mem BsDump.lcConfig ha
  have hblc := Set.mem_image_of_mem BsDump.lcConfig hb
  obtain ⟨sec1, hsec1⟩ := h.enbConfig.succeeds _ haenb
  obtain ⟨sec2, hsec2⟩ := h.enbConfig.succeeds _ hbenb
  obtain ⟨suc1, hsuc1⟩ := h.ueConfig.succeeds _ haue
  obtain ⟨suc2, hsuc2⟩ := h.ueConfig.succeeds _ hbue
  obtain ⟨slc1, hslc1⟩ := h.lcConfig.succeeds _ halc
  obtain ⟨slc2, hslc2⟩ := h.lcConfig.succeeds _ hblc
  have hresult : sameConfigs pb a b = some (sec1 == sec2 && suc1 == suc2 && slc1 == slc2) := by
    rw [sameConfigs, hsec1, hsec2, hsuc1, hsuc2, hslc1, hslc2]
    rfl
  rw [hresult, Option.getD_some, Bool.and_eq_true, Bool.and_eq_true, and_assoc,
    h.enbConfig.beq_iff haenb hbenb hsec1 hsec2, h.ueConfig.beq_iff haue hbue hsuc1 hsuc2,
    h.lcConfig.beq_iff halc hblc hslc1 hslc2]

/-- `operator==` compares everything but the reports. -/
theorem equals_iff (h : pb.InjectiveOn S) (ha : a ∈ S) (hb : b ∈ S) :
    a.equals pb b = true ↔ a.withoutReports = b.withoutReports := by
  have hreports : ∀ ue ∈ a.ueMacHarqInfos,
      ∃ bytes, pb.ueStatsReport.serialize ue.macStatsReport = some bytes := fun ue hue =>
    h.ueStats.succeeds _ ⟨a, ha, List.mem_map_of_mem hue⟩
  rw [withoutReports_ext_iff, BsDump.equals]
  by_cases htime : a.time = b.time
  · rw [if_neg (not_not.mpr htime)]
    by_cases hlength : a.ueMacHarqInfos.length = b.ueMacHarqInfos.length
    · rw [if_neg (not_not.mpr hlength)]
      by_cases hues : sameUes pb a.ueMacHarqInfos b.ueMacHarqInfos = true
      · rw [if_pos hues, sameConfigs_iff h ha hb]
        have hharq := (sameUes_iff hlength hreports).mp hues
        exact ⟨fun heq => ⟨htime, heq.1, heq.2.1, heq.2.2, hharq⟩,
          fun heq => ⟨heq.2.1, heq.2.2.1, heq.2.2.2.1⟩⟩
      · rw [if_neg hues]
        exact iff_of_false (by simp) fun heq =>
          hues ((sameUes_iff hlength hreports).mpr heq.2.2.2.2)
    · rw [if_pos hlength]
      refine iff_of_false (by simp) fun heq => hlength ?_
      simpa using congrArg List.length heq.2.2.2.2
  · rw [if_pos htime]
    exact iff_of_false (by simp) fun heq => htime heq.1

/-! ### Dumps -/

/-- Sequences whose elements are compared through a function. -/
theorem rangeEquals_iff {eq : α → α → Bool} {f : α → β} {x y : List α}
    (h : ∀ c ∈ x, ∀ d ∈ y, (eq c d = true ↔ f c = f d)) :
    rangeEquals eq x y = true ↔ x.map f = y.map f := by
  induction x generalizing y with
  | nil => cases y <;> simp [rangeEquals]
  | cons c x ih =>
    cases y with
    | nil => simp [rangeEquals]
    | cons d y =>
      have htail := ih (y := y) fun c hc d hd =>
        h c (List.mem_cons_of_mem _ hc) d (List.mem_cons_of_mem _ hd)
      have hhead := h c (by simp) d (by simp)
      rw [List.map_cons, List.map_cons, List.cons.injEq, ← hhead, ← htail]
      simp only [rangeEquals, List.length_cons, List.zip_cons_cons, List.all_cons,
        Bool.and_eq_true, beq_iff_eq, Nat.add_right_cancel_iff]
      tauto

/-- All records of the dump are in the set. -/
def RecordsIn (S : Set BsDump) (v : List Chunk) : Prop :=
  ∀ chunk ∈ v, ∀ e ∈ chunk.toList, e.2 ∈ S

theorem dumpEquals_iff (h : pb.InjectiveOn S) (hv : RecordsIn S v) (hw : RecordsIn S w) :
    dumpEquals pb v w = true ↔
      onRecords BsDump.withoutReports v = onRecords BsDump.withoutReports w := by
  rw [onRecords, onRecords, records, records, List.map_map, List.map_map]
  refine rangeEquals_iff fun c hc d hd => ?_
  refine rangeEquals_iff fun e he f hf => ?_
  rw [Bool.and_eq_true, beq_iff_eq, equals_iff h (hv c hc e he) (hw d hd f hf), Prod.mk.injEq]

theorem records_injective : Function.Injective records := by
  refine List.map_injective_iff.mpr fun c d h => ?_
  rw [← foldl_insertIfNew_toList c, ← foldl_insertIfNew_toList d]
  exact congrArg (List.foldl _ ∅) h

theorem eq_iff_onRecords : v = w ↔
    onRecords BsDump.withoutReports v = onRecords BsDump.withoutReports w ∧
      onRecords BsDump.reports v = onRecords BsDump.reports w := by
  constructor
  · rintro rfl
    exact ⟨rfl, rfl⟩
  · rintro ⟨hrest, hreports⟩
    refine records_injective (eq_of_map_eq (fun x y hx hy => ?_) hrest hreports)
    refine eq_of_map_eq (fun e f he hf => ?_) hx hy
    obtain ⟨hkey, he⟩ := Prod.mk.inj he
    exact Prod.ext hkey (eq_iff_withoutReports.mpr ⟨he, (Prod.mk.inj hf).2⟩)

/-- Records and dumps: `==` is equality if and only if the reports agree wherever everything else
does. -/
theorem equals_iff_eq_iff (h : pb.InjectiveOn S) :
    (∀ a ∈ S, ∀ b ∈ S, ((a.equals pb b = true ↔ a = b) ↔
      (a.withoutReports = b.withoutReports → a.reports = b.reports))) ∧
    ∀ v w, RecordsIn S v → RecordsIn S w → ((dumpEquals pb v w = true ↔ v = w) ↔
      (onRecords BsDump.withoutReports v = onRecords BsDump.withoutReports w →
        onRecords BsDump.reports v = onRecords BsDump.reports w)) := by
  refine ⟨fun a ha b hb => ?_, fun v w hv hw => ?_⟩
  · have hsplit := eq_iff_withoutReports (a := a) (b := b)
    rw [equals_iff h ha hb]
    tauto
  · have hsplit := eq_iff_onRecords (v := v) (w := w)
    rw [dumpEquals_iff h hv hw]
    tauto

end Comparison

/-! ## Two records that differ in a report -/

/-- The record whose UE has another RNTI. -/
def otherRecord : BsDump :=
  { shortRecord with
    ueMacHarqInfos :=
      shortRecord.ueMacHarqInfos.map fun ue => { ue with macStatsReport := { rnti := some 8 } } }

theorem injectiveOn_shortMessages : shortMessages.InjectiveOn {shortRecord, otherRecord} where
  enbConfig := by
    rw [Set.image_pair]
    exact ⟨fun m _ => ⟨[], rfl⟩, by simp [shortRecord, otherRecord]⟩
  ueConfig := by
    rw [Set.image_pair]
    exact ⟨fun m _ => ⟨[], rfl⟩, by simp [shortRecord, otherRecord]⟩
  lcConfig := by
    rw [Set.image_pair]
    exact ⟨fun m _ => ⟨[], rfl⟩, by simp [shortRecord, otherRecord]⟩
  ueStats := by
    have hreports : { m | ∃ bd ∈ ({shortRecord, otherRecord} : Set BsDump), m ∈ bd.reports } =
        {{ rnti := some 7 }, { rnti := some 8 }} := by
      ext m
      simp [BsDump.reports, shortRecord, otherRecord, eq_comm]
    rw [hreports]
    refine ⟨?_, ?_⟩
    · rintro m (rfl | rfl)
      · exact ⟨[8, 7], rfl⟩
      · exact ⟨[8, 8], rfl⟩
    · rintro m (rfl | rfl) n (rfl | rfl) heq
      · rfl
      · exact absurd heq (by decide)
      · exact absurd heq (by decide)
      · rfl

theorem shortRecord_ne_otherRecord : shortRecord.reports ≠ otherRecord.reports := by
  simp [BsDump.reports, shortRecord, otherRecord]

theorem equals_iff_eq_iff_shortMessages :
    (shortRecord.equals shortMessages shortRecord = true ↔ shortRecord = shortRecord) ∧
      ¬ (shortRecord.equals shortMessages otherRecord = true ↔ shortRecord = otherRecord) := by
  have hequals := (equals_iff_eq_iff injectiveOn_shortMessages).1 shortRecord (by simp)
  refine ⟨(hequals shortRecord (by simp)).mpr fun _ => rfl, ?_⟩
  exact mt (hequals otherRecord (by simp)).mp fun h =>
    shortRecord_ne_otherRecord (h (withoutReports_ext_iff.mpr ⟨rfl, rfl, rfl, rfl, rfl⟩))

/-- Two records with different reports are equal. -/
theorem not_forall_equals_iff : ¬ ∀ (pb : Protobuf) (S : Set BsDump), pb.InjectiveOn S →
    ∀ a ∈ S, ∀ b ∈ S, (a.equals pb b = true ↔ a = b) := by
  intro h
  have hequals : shortRecord.equals shortMessages otherRecord = true := by decide
  have heq := (h shortMessages _ injectiveOn_shortMessages shortRecord (by simp) otherRecord
    (by simp)).mp hequals
  exact shortRecord_ne_otherRecord (congrArg BsDump.reports heq)

end FlexRan.App.Log
