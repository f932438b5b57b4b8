import FlexRan.App.StatsDirectory

/-!
# Active statistics requests

What an agent reports is decided by the last request sent to it with each transaction id.  The
list the manager stores should describe these requests: the report at position `k` is what was
asked for last with id `k`, and from the end of the list on reporting is off.

A base station that dissolves loses its list, while the agents that stay connected are not told
to stop; when the base station forms again only the request with id 0 is renewed.  An agent may
also belong to two base stations, and requests to one of them reach it for the other.
`always_matched_iff` gives the condition on each event under which the description stays right.

## Main definitions

* `lastRequest`: the last request with an id sent to an agent.
* `Matched`: every agent of a base station has been asked for what the list says.
* `Harmless`: the condition on an event.
-/
namespace FlexRan.App.Stats

open Lib Lib.Operation Protocol Rib Rib.Rib

/-! ## Requests and reports -/

/-- The request an effect sends to an agent under a transaction id. -/
def requestTo? (agentId : ℤ) (xid : UInt32) : Effect → Option FlexCompleteStatsRequest
  | .sendMsg id { msg := .statsRequest m, .. } =>
    if id = agentId ∧ (m.header.bind FlexHeader.xid).getD 0 = xid then
      some (m.completeStatsRequest.getD {})
    else none
  | _ => none

def lastRequest (effects : List Effect) (agentId : ℤ) (xid : UInt32) :
    Option FlexCompleteStatsRequest :=
  last? (requestTo? agentId xid) effects

/-- The bitwise OR of the flags. -/
def orFlags (flags : List UInt32) : UInt32 := flags.foldr (fun f acc => f ||| acc) 0

/-- The request carries what the report says; unset fields of the report read as defaults. -/
structure Carries (req report : FlexCompleteStatsRequest) : Prop where
  reportFrequency : req.reportFrequency = some (report.reportFrequency.getD .once)
  sf : req.sf = some (report.sf.getD 0)
  ueReportFlags : req.ueReportFlags = some (orFlags (report.ueReports.map FlexUeStatsType.number))
  cellReportFlags :
    req.cellReportFlags = some (orFlags (report.cellReports.map FlexCellStatsType.number))

/-- A stored report, if there is one, is what the last request carries; where nothing is stored,
the last request has turned reporting off, if there is a request at all. -/
def Fits : Option FlexCompleteStatsRequest → Option FlexCompleteStatsRequest → Prop
  | some report, some req => Carries req report
  | some _, none => False
  | none, some req => req.reportFrequency = some .off
  | none, none => True

/-- Every agent of a base station has been asked for what the list of the base station says. -/
def Matched (w : World StatsManager) : Prop :=
  ∀ b x a, w.rib.MemberOf b x a → ∃ reqs, w.app.bsList[b]? = some reqs ∧
    ∀ xid : UInt32, Fits reqs.reports[xid.toNat]? (lastRequest w.effects a.agentId xid)

/-! ## The condition on an event -/

/-- The agents of the base station of `a` once `a` is pending. -/
def Joining (r : Rib) (a d : AgentInfo) : Prop :=
  d = a ∨ ∃ y : ℕ, (r.pendingOf a.bsId)[y]? = some d

/-- With `a` the pending agents of its base station have all required capabilities. -/
def Completes (r : Rib) (a : AgentInfo) : Prop :=
  ∀ c : BsCapability, c.Required → ∃ d, Joining r a d ∧ c ∈ d.capabilities

/-- The request is what base station `c` has stored, if it has an agent of this id. -/
def FitsAt (w : World StatsManager) (c : UInt64) (agentId : ℤ) (xid : UInt32)
    (req : FlexCompleteStatsRequest) : Prop :=
  ∀ x a reqs, w.rib.MemberOf c x a → a.agentId = agentId → w.app.bsList[c]? = some reqs →
    Fits reqs.reports[xid.toNat]? (some req)

/-- The first report of the default list. -/
def defaultReport : FlexCompleteStatsRequest := defaultStatsRequest.reports.headD {}

/-- A hello that completes a base station finds no request but the first one active at its
agents; and no request goes to an agent of another base station that has stored something
else. -/
def Harmless (parser : Parser) (w : World StatsManager) : StatsEvent → Prop
  | .agent (.hello agentId m dir endpoint _) =>
    w.rib.Accepts dir (helloAgent agentId m endpoint) →
    Completes w.rib (helloAgent agentId m endpoint) →
    ∀ d, Joining w.rib (helloAgent agentId m endpoint) d →
      (∀ xid ≠ 0, Fits none (lastRequest w.effects d.agentId xid)) ∧
      ∀ c, FitsAt w c d.agentId 0 (completeStatsRequest defaultReport)
  | .agent (.disconnect _) => True
  | .statsReply agentId m =>
    w.rib.getBsFromAgent agentId = none →
    ∀ c, FitsAt w c agentId ((m.header.bind FlexHeader.xid).getD 0) offRequest
  | .setStatsRequests bs policy =>
    ∀ b proto reqs, w.rib.parseEnbAgentId bs = .ok b → b ≠ 0 → parser.parse policy = some proto →
      w.app.bsList[b]? = some reqs → ∀ x a, w.rib.MemberOf b x a → ∀ c ≠ b, ∀ xid : UInt32,
        (∀ r, proto.reports[xid.toNat]? = some r →
          FitsAt w c a.agentId xid (completeStatsRequest r)) ∧
        (proto.reports[xid.toNat]? = none → xid.toNat < reqs.reports.length →
          FitsAt w c a.agentId xid offRequest)

/-! ## The last request -/

variable {parser : Parser} {w w' : World StatsManager} {e : StatsEvent}
  {agentId : ℤ} {xid : UInt32}

theorem lastRequest_append (effects effects' : List Effect) :
    lastRequest (effects ++ effects') agentId xid =
      (lastRequest effects' agentId xid).or (lastRequest effects agentId xid) :=
  last?_append _ _ _

theorem foldl_or_eq_orFlags {ι : Type} (number : ι → UInt32) (l : List ι) :
    l.foldl (fun flags f => flags ||| number f) 0 = orFlags (l.map number) := by
  have h : ∀ acc, l.foldl (fun flags f => flags ||| number f) acc =
      acc ||| orFlags (l.map number) := by
    induction l with
    | nil => simp [orFlags]
    | cons f l ih =>
      intro acc
      rw [List.foldl_cons, ih, UInt32.or_assoc]
      rfl
  rw [h, UInt32.zero_or]

/-- What is pushed for a report carries it. -/
theorem carries_completeStatsRequest (report : FlexCompleteStatsRequest) :
    Carries (completeStatsRequest report) report where
  reportFrequency := rfl
  sf := rfl
  ueReportFlags := congrArg some (foldl_or_eq_orFlags FlexUeStatsType.number report.ueReports)
  cellReportFlags :=
    congrArg some (foldl_or_eq_orFlags FlexCellStatsType.number report.cellReports)

theorem fits_none_offRequest : Fits none (some offRequest) := rfl

/-- Small transaction ids are told apart. -/
theorem requestTo?_statsRequestMsg (id : ℤ) {k : ℕ} (hk : k < 2 ^ 32)
    (req : FlexCompleteStatsRequest) :
    requestTo? agentId xid (.sendMsg id (statsRequestMsg (UInt32.ofNat k) req)) =
      if id = agentId ∧ k = xid.toNat then some req else none := by
  have hxid : UInt32.ofNat k = xid ↔ k = xid.toNat := by
    rw [← UInt32.toNat_inj, UInt32.toNat_ofNat_of_lt' hk]
  exact if_congr (and_congr_right fun _ => hxid) rfl rfl

/-- A list of requests, each with its transaction id, sent to the agents of a base station. -/
def requests (r : Rib) (b : UInt64) (l : List (ℕ × FlexCompleteStatsRequest)) : List Effect :=
  l.flatMap fun e => sendToBs r b (statsRequestMsg (UInt32.ofNat e.1) e.2)

theorem offEffects_eq (r : Rib) (b : UInt64) (n : ℕ) :
    offEffects r b n = requests r b ((List.range n).map fun k => (k, offRequest)) := by
  rw [offEffects, requests, List.flatMap_map]

theorem requestEffects_eq (r : Rib) (b : UInt64) (reports : List FlexCompleteStatsRequest) :
    requestEffects r b reports =
      requests r b (reports.zipIdx.map fun e => (e.2, completeStatsRequest e.1)) := by
  rw [requestEffects, requests, List.flatMap_map]

/-- Whether base station `b` has an agent of this id. -/
def HasAgent (r : Rib) (b : UInt64) (agentId : ℤ) : Prop :=
  ∃ x a, r.MemberOf b x a ∧ a.agentId = agentId

section Requests

variable {r : Rib} {b : UInt64} {l : List (ℕ × FlexCompleteStatsRequest)}

theorem mem_requests {f : Effect} :
    f ∈ requests r b l ↔ ∃ k req, (k, req) ∈ l ∧ ∃ x a, r.MemberOf b x a ∧
      f = .sendMsg a.agentId (statsRequestMsg (UInt32.ofNat k) req) := by
  simp [requests, mem_sendToBs]

theorem lastRequest_requests {req : FlexCompleteStatsRequest} (hlt : ∀ e ∈ l, e.1 < 2 ^ 32)
    (hmem : (xid.toNat, req) ∈ l) (huniq : ∀ req', (xid.toNat, req') ∈ l → req' = req)
    (hagent : HasAgent r b agentId) :
    lastRequest (requests r b l) agentId xid = some req := by
  apply last?_eq_some
  · intro f hf
    obtain ⟨k, req', hk, x, a, _, rfl⟩ := mem_requests.mp hf
    rw [requestTo?_statsRequestMsg _ (hlt _ hk)]
    by_cases h : a.agentId = agentId ∧ k = xid.toNat
    · rw [if_pos h, huniq req' (h.2 ▸ hk)]
      exact .inr rfl
    · exact .inl (if_neg h)
  · obtain ⟨x, a, hmember, hid⟩ := hagent
    refine ⟨_, mem_requests.mpr ⟨xid.toNat, req, hmem, x, a, hmember, rfl⟩, ?_⟩
    rw [requestTo?_statsRequestMsg _ (hlt _ hmem), if_pos ⟨hid, rfl⟩]

theorem lastRequest_requests_none (hlt : ∀ e ∈ l, e.1 < 2 ^ 32)
    (h : ¬ HasAgent r b agentId ∨ ∀ req, (xid.toNat, req) ∉ l) :
    lastRequest (requests r b l) agentId xid = none := by
  apply last?_eq_none
  intro f hf
  obtain ⟨k, req, hk, x, a, hmember, rfl⟩ := mem_requests.mp hf
  rw [requestTo?_statsRequestMsg _ (hlt _ hk)]
  apply if_neg
  rintro ⟨hid, rfl⟩
  rcases h with h | h
  · exact h ⟨x, a, hmember, hid⟩
  · exact h req hk

theorem lastRequest_requestEffects {reports : List FlexCompleteStatsRequest}
    (hlt : reports.length < 2 ^ 31) (hagent : HasAgent r b agentId) :
    lastRequest (requestEffects r b reports) agentId xid =
      reports[xid.toNat]?.map completeStatsRequest := by
  have hmem : ∀ k req, (k, req) ∈ (reports.zipIdx.map fun e => (e.2, completeStatsRequest e.1)) ↔
      ∃ report, reports[k]? = some report ∧ completeStatsRequest report = req := by
    intro k req
    simp [List.mem_zipIdx_iff_getElem?, and_comm]
  have hsmall : ∀ e ∈ (reports.zipIdx.map fun e => (e.2, completeStatsRequest e.1)),
      e.1 < 2 ^ 32 := by
    rintro ⟨k, req⟩ he
    obtain ⟨report, hreport, _⟩ := (hmem k req).mp he
    have := (List.getElem?_eq_some_iff.mp hreport).1
    omega
  rw [requestEffects_eq]
  cases hk : reports[xid.toNat]? with
  | none =>
    apply lastRequest_requests_none hsmall
    refine .inr fun req hreq => ?_
    obtain ⟨report, hreport, _⟩ := (hmem _ req).mp hreq
    exact absurd (hk.symm.trans hreport) (by simp)
  | some report =>
    refine lastRequest_requests hsmall ((hmem _ _).mpr ⟨report, hk, rfl⟩) ?_ hagent
    intro req hreq
    obtain ⟨report', hreport', rfl⟩ := (hmem _ req).mp hreq
    rw [Option.some.inj (hk.symm.trans hreport')]

theorem lastRequest_offEffects {n : ℕ} (hlt : n < 2 ^ 31) (hagent : HasAgent r b agentId) :
    lastRequest (offEffects r b n) agentId xid =
      if xid.toNat < n then some offRequest else none := by
  have hmem : ∀ k req, (k, req) ∈ ((List.range n).map fun k => (k, offRequest)) ↔
      k < n ∧ offRequest = req := by
    intro k req
    simp
  have hsmall : ∀ e ∈ ((List.range n).map fun k => (k, offRequest)), e.1 < 2 ^ 32 := by
    rintro ⟨k, req⟩ he
    have := ((hmem k req).mp he).1
    omega
  rw [offEffects_eq]
  by_cases hk : xid.toNat < n
  · rw [if_pos hk]
    refine lastRequest_requests hsmall ((hmem _ _).mpr ⟨hk, rfl⟩) ?_ hagent
    intro req hreq
    exact ((hmem _ req).mp hreq).2.symm
  · rw [if_neg hk]
    apply lastRequest_requests_none hsmall
    exact .inr fun req hreq => hk ((hmem _ req).mp hreq).1

/-- Requests to a base station do not reach the agents it does not have. -/
theorem lastRequest_others {effects : List Effect} (hagent : ¬ HasAgent r b agentId)
    (h : ∀ f ∈ effects, ∃ msg x a, r.MemberOf b x a ∧ f = .sendMsg a.agentId msg) :
    lastRequest effects agentId xid = none := by
  apply last?_eq_none
  intro f hf
  obtain ⟨msg, x, a, hmember, rfl⟩ := h f hf
  have hid : a.agentId ≠ agentId := fun hid => hagent ⟨x, a, hmember, hid⟩
  obtain ⟨dir, body⟩ := msg
  cases body with
  | statsRequest m => exact if_neg fun h => hid h.1
  | _ => rfl

end Requests

/-- The configuration requests of a new base station are no statistics requests. -/
theorem lastRequest_triggerBsConfig (r : Rib) (b : UInt64) :
    lastRequest (triggerBsConfig r b ++ [.bsAdd b]) agentId xid = none := by
  apply last?_eq_none
  intro f hf
  simp only [triggerBsConfig, List.mem_append, mem_sendToBs, List.mem_singleton] at hf
  rcases hf with ((⟨x, a, _, rfl⟩ | ⟨x, a, _, rfl⟩) | ⟨x, a, _, rfl⟩) | rfl <;> rfl

/-! ## The agents of a new base station -/

section Joining

variable {r : Rib} {x : ℕ} {a d : AgentInfo}

theorem joining_iff (hfresh : ∀ b, ¬ r.Live x b) :
    Joining r a d ↔ ∃ y : ℕ, ((r.pend x a).pendingOf a.bsId)[y]? = some d := by
  simp only [Joining, getElem?_pendingOf, getElem?_pend hfresh]
  constructor
  · rintro (rfl | ⟨y, hy, hd⟩)
    · exact ⟨x, by simp⟩
    · refine ⟨y, ?_, hd⟩
      rw [if_neg]
      · exact hy
      · rintro rfl
        exact hfresh d (.inl hy)
  · rintro ⟨y, hy, hd⟩
    by_cases hyx : y = x
    · rw [if_pos hyx] at hy
      exact .inl (Option.some.inj hy).symm
    · rw [if_neg hyx] at hy
      exact .inr ⟨y, hy, hd⟩

theorem completes_iff (hfresh : ∀ b, ¬ r.Live x b) :
    Completes r a ↔ Covers ((r.pend x a).pendingOf a.bsId) := by
  simp only [Completes, Covers, joining_iff hfresh]
  refine forall₂_congr fun c _ => ?_
  constructor
  · rintro ⟨d, ⟨y, hy⟩, hc⟩
    exact ⟨y, d, hy, hc⟩
  · rintro ⟨y, d, hy, hc⟩
    exact ⟨d, ⟨y, hy⟩, hc⟩

/-- The members of base stations once the new one has been formed. -/
theorem memberOf_form_iff (hnew : r.eNBConfigs[a.bsId]? = none) {b : UInt64} {y : ℕ} :
    ((r.pend x a).form a.bsId).MemberOf b y d ↔
      (b = a.bsId ∧ ((r.pend x a).pendingOf a.bsId)[y]? = some d) ∨ r.MemberOf b y d := by
  rw [MemberOf, getElem?_eNBConfigs_form]
  by_cases hb : b = a.bsId
  · have hnone : ¬ r.MemberOf b y d := by
      rintro ⟨bs, hbs, _⟩
      rw [hb, hnew] at hbs
      exact absurd hbs (by simp)
    simp [hb, pend, hnew, MemberOf]
  · simp [hb, pend, MemberOf]

end Joining

/-! ## Steps -/

/-- The directory is right and the lists are as long as a repeated field can be. -/
structure Listing (w : World StatsManager) : Prop extends Mirror w where
  size_lt : ∀ (b : UInt64) reqs, w.app.bsList[b]? = some reqs → reqs.reports.length < 2 ^ 31

theorem listing_initial : Listing initial where
  toMirror := mirror_initial
  size_lt := by simp [initial]

theorem StatsOutcome.listing (ho : StatsOutcome parser w e w') (h : Listing w) : Listing w' where
  toMirror := ho.mirror h.toMirror
  size_lt b reqs hreqs := by
    cases ho with
    | kept _ _ _ => exact h.size_lt b reqs hreqs
    | formed _ _ _ _ _ _ =>
      rw [Std.ExtTreeMap.getElem?_insertIfNew] at hreqs
      split at hreqs
      · rw [← Option.some.inj hreqs]
        decide
      · exact h.size_lt b reqs hreqs
    | dissolved _ _ _ =>
      rw [Std.ExtTreeMap.getElem?_erase] at hreqs
      split at hreqs
      · exact absurd hreqs (by simp)
      · exact h.size_lt b reqs hreqs
    | replied _ => exact h.size_lt b reqs hreqs
    | accepted _ _ hparse _ =>
      rw [Std.ExtTreeMap.getElem?_insert] at hreqs
      split at hreqs
      · rw [← Option.some.inj hreqs]
        exact parser.size_lt _ _ hparse
      · exact h.size_lt b reqs hreqs
    | rejected _ => exact h.size_lt b reqs hreqs

theorem matched_initial : Matched initial := by
  rintro b x a ⟨bs, hbs, _⟩
  simp [initial] at hbs

/-- Nothing is asked for, and the base stations that are left keep their lists. -/
theorem Matched.mono (hm : Matched w)
    (hmember : ∀ b x a, w'.rib.MemberOf b x a →
      w.rib.MemberOf b x a ∧ w'.app.bsList[b]? = w.app.bsList[b]?)
    (hlast : ∀ id xid, lastRequest w'.effects id xid = lastRequest w.effects id xid) :
    Matched w' := by
  intro b x a ha
  obtain ⟨ha, hlist⟩ := hmember b x a ha
  obtain ⟨reqs, hreqs, hfits⟩ := hm b x a ha
  refine ⟨reqs, hlist.trans hreqs, fun xid => ?_⟩
  rw [hlast]
  exact hfits xid

theorem lastRequest_append_none {effects effects' : List Effect}
    (h : ∀ f ∈ effects', requestTo? agentId xid f = none) :
    lastRequest (effects ++ effects') agentId xid = lastRequest effects agentId xid := by
  rw [lastRequest_append, show lastRequest effects' agentId xid = none from last?_eq_none h,
    Option.none_or]

theorem harmless_of_kept {e : RibEvent} {r : Rib} {effects : List Effect}
    (ho : Outcome w.rib e r effects) (hkeys : r.eNBConfigs = w.rib.eNBConfigs) :
    Harmless parser w (.agent e) := by
  cases ho with
  | rejected h => exact fun haccepts => absurd haccepts h
  | waiting x haccepts hfresh h =>
    intro _ hcompletes
    exact absurd ((completes_iff hfresh).mp hcompletes) h
  | @formed agentId m dir endpoint want x haccepts hfresh h =>
    have hmem := (mem_eNBConfigs_form (b := (helloAgent agentId m endpoint).bsId)
      (r := w.rib.pend x (helloAgent agentId m endpoint)) haccepts.new_bs).mpr (.inl rfl)
    rw [hkeys, Std.ExtTreeMap.mem_iff_isSome_getElem?, haccepts.new_bs] at hmem
    exact absurd hmem (by simp)
  | dissolved _ _ _ => trivial
  | withdrawn _ _ _ _ => trivial
  | unknown _ _ => trivial

/-- Base station `b` has a list of its own, and its agents have been asked for `asked`. -/
structure Asked (w w' : World StatsManager) (b : UInt64)
    (proto : FlexCompleteStatsRequestRepeated)
    (asked : UInt32 → Option FlexCompleteStatsRequest) : Prop where
  memberOf_iff : ∀ {c y d}, c ≠ b → (w'.rib.MemberOf c y d ↔ w.rib.MemberOf c y d)
  stored : w'.app.bsList[b]? = some proto
  others : ∀ {c}, c ≠ b → w'.app.bsList[c]? = w.app.bsList[c]?
  last : ∀ {id} (k : UInt32), HasAgent w'.rib b id →
    lastRequest w'.effects id k = (asked k).or (lastRequest w.effects id k)
  frame : ∀ {id} (k : UInt32), ¬ HasAgent w'.rib b id →
    lastRequest w'.effects id k = lastRequest w.effects id k

/-- The agents of the base station have to fit, and what they are asked for has to fit the other
base stations that have them. -/
theorem Asked.matched_iff {b : UInt64} {proto : FlexCompleteStatsRequestRepeated}
    {asked : UInt32 → Option FlexCompleteStatsRequest} (h : Asked w w' b proto asked)
    (hm : Matched w) :
    Matched w' ↔ ∀ x a, w'.rib.MemberOf b x a → ∀ k : UInt32,
      Fits proto.reports[k.toNat]? ((asked k).or (lastRequest w.effects a.agentId k)) ∧
      ∀ c ≠ b, ∀ req, asked k = some req → FitsAt w c a.agentId k req := by
  constructor
  · intro hm' x a ha k
    constructor
    · obtain ⟨reqs, hreqs, hfits⟩ := hm' b x a ha
      obtain rfl := Option.some.inj (h.stored.symm.trans hreqs)
      rw [← h.last k ⟨x, a, ha, rfl⟩]
      exact hfits k
    · intro c hc req hreq y d reqs hd hid hreqs
      obtain ⟨reqs', hreqs', hfits⟩ := hm' c y d ((h.memberOf_iff hc).mpr hd)
      obtain rfl := Option.some.inj (hreqs.symm.trans ((h.others hc).symm.trans hreqs'))
      have hfit := hfits k
      rwa [h.last k ⟨x, a, ha, hid.symm⟩, hreq, Option.some_or] at hfit
  · intro hall c y d hd
    by_cases hc : c = b
    · subst hc
      refine ⟨proto, h.stored, fun k => ?_⟩
      rw [h.last k ⟨y, d, hd, rfl⟩]
      exact (hall y d hd k).1
    · have hd' := (h.memberOf_iff hc).mp hd
      obtain ⟨reqs, hreqs, hfits⟩ := hm c y d hd'
      refine ⟨reqs, (h.others hc).trans hreqs, fun k => ?_⟩
      by_cases hshared : HasAgent w'.rib b d.agentId
      · rw [h.last k hshared]
        obtain ⟨x, a, ha, hid⟩ := hshared
        cases hreq : asked k with
        | none => exact hfits k
        | some req => exact (hall x a ha k).2 c hc req hreq y d reqs hd' hid.symm hreqs
      · rw [h.frame k hshared]
        exact hfits k

/-- The default list has one report, under the id 0. -/
theorem getElem?_defaultStatsRequest (k : UInt32) :
    defaultStatsRequest.reports[k.toNat]? = if k = 0 then some defaultReport else none := by
  split_ifs with hk
  · subst hk
    rfl
  · have hne : k.toNat ≠ 0 := fun h0 => hk (UInt32.toNat_inj.mp h0)
    rw [List.getElem?_eq_none]
    rw [show defaultStatsRequest.reports.length = 1 from rfl]
    omega

/-- Forming a base station. Only the request with id 0 is sent, to its agents. -/
theorem asked_formed (h : Listing w) {x : ℕ} {a : AgentInfo} {dir : FlexranDirection}
    (haccepts : w.rib.Accepts dir a) :
    Asked w
      { rib := (w.rib.pend x a).form a.bsId
        app := { bsList := w.app.bsList.insertIfNew a.bsId defaultStatsRequest }
        effects := w.effects ++ (triggerBsConfig ((w.rib.pend x a).form a.bsId) a.bsId ++
          [.bsAdd a.bsId] ++
          requestEffects ((w.rib.pend x a).form a.bsId) a.bsId defaultStatsRequest.reports) }
      a.bsId defaultStatsRequest
      (fun k => defaultStatsRequest.reports[k.toNat]?.map completeStatsRequest) where
  memberOf_iff hc := by
    rw [memberOf_form_iff haccepts.new_bs]
    simp [hc]
  stored := by
    rw [Std.ExtTreeMap.getElem?_insertIfNew, if_pos]
    refine ⟨Std.ReflCmp.compare_self, ?_⟩
    rw [h.listed, Std.ExtTreeMap.mem_iff_isSome_getElem?, haccepts.new_bs]
    simp
  others hc := by
    rw [Std.ExtTreeMap.getElem?_insertIfNew, if_neg]
    rintro ⟨heq, _⟩
    exact hc (Std.LawfulEqCmp.eq_of_compare heq).symm
  last k hagent := by
    rw [lastRequest_append, lastRequest_append, lastRequest_triggerBsConfig, Option.or_none,
      lastRequest_requestEffects (by decide) hagent]
  frame k hagent := by
    rw [lastRequest_append, lastRequest_append, lastRequest_triggerBsConfig, Option.or_none,
      lastRequest_others hagent, Option.none_or]
    intro f hf
    rw [requestEffects_eq, mem_requests] at hf
    obtain ⟨_, _, _, y, d, hd, rfl⟩ := hf
    exact ⟨_, y, d, hd, rfl⟩

theorem matched_formed_iff (h : Listing w) (hm : Matched w) {x : ℕ} {a : AgentInfo}
    {dir : FlexranDirection} (haccepts : w.rib.Accepts dir a) (hfresh : ∀ b, ¬ w.rib.Live x b) :
    Matched
        { rib := (w.rib.pend x a).form a.bsId
          app := { bsList := w.app.bsList.insertIfNew a.bsId defaultStatsRequest }
          effects := w.effects ++ (triggerBsConfig ((w.rib.pend x a).form a.bsId) a.bsId ++
            [.bsAdd a.bsId] ++
            requestEffects ((w.rib.pend x a).form a.bsId) a.bsId defaultStatsRequest.reports) } ↔
      ∀ d, Joining w.rib a d →
        (∀ xid ≠ 0, Fits none (lastRequest w.effects d.agentId xid)) ∧
        ∀ c, FitsAt w c d.agentId 0 (completeStatsRequest defaultReport) := by
  have hnone : ∀ y d, ¬ w.rib.MemberOf a.bsId y d := by
    rintro y d ⟨bs, hbs, _⟩
    rw [haccepts.new_bs] at hbs
    exact absurd hbs (by simp)
  -- the members of the new base station are the agents that join
  have hjoin : ∀ d, Joining w.rib a d ↔
      ∃ y, ((w.rib.pend x a).form a.bsId).MemberOf a.bsId y d := by
    intro d
    simp only [joining_iff hfresh, memberOf_form_iff haccepts.new_bs, hnone, or_false, true_and]
  rw [(asked_formed h haccepts).matched_iff hm]
  simp only [hjoin]
  constructor
  · rintro hall d ⟨y, hd⟩
    constructor
    · intro k hk
      have hfit := (hall y d hd k).1
      rwa [getElem?_defaultStatsRequest, if_neg hk, Option.map_none, Option.none_or] at hfit
    · intro c
      by_cases hc : c = a.bsId
      · rw [hc]
        exact fun y' d' _ hd' => absurd hd' (hnone y' d')
      · exact (hall y d hd 0).2 c hc _ rfl
  · intro hall y d hd k
    obtain ⟨hothers, hzero⟩ := hall d ⟨y, hd⟩
    rw [getElem?_defaultStatsRequest]
    split_ifs with hk
    · refine ⟨carries_completeStatsRequest defaultReport, fun c _ req hreq => ?_⟩
      rw [hk, ← Option.some.inj hreq]
      exact hzero c
    · exact ⟨hothers k hk, fun c _ req hreq => absurd hreq (by simp)⟩

theorem matched_dissolved (hm : Matched w) {agentId : ℤ} {p : AgentPtr} {bs : EnbRibInfo} {r : Rib}
    (hd : Dissolved w.rib p bs r) :
    Matched
      { rib := r
        app := { bsList := w.app.bsList.erase p.2.bsId }
        effects := w.effects ++ [.bsRemove p.2.bsId, .releaseConnection agentId] } := by
  apply hm.mono
  · rintro b y d ⟨bs', hbs', hd'⟩
    rw [hd.getElem?_eNBConfigs] at hbs'
    by_cases hb : b = p.2.bsId
    · rw [if_pos hb] at hbs'
      exact absurd hbs' (by simp)
    · rw [if_neg hb] at hbs'
      refine ⟨⟨bs', hbs', hd'⟩, ?_⟩
      rw [Std.ExtTreeMap.getElem?_erase, if_neg]
      simpa using Ne.symm hb
  · intro id xid
    apply lastRequest_append_none
    intro f hf
    simp only [List.mem_cons, List.not_mem_nil, or_false] at hf
    rcases hf with rfl | rfl <;> rfl

/-- A statistics reply. -/
theorem matched_replied_iff (hm : Matched w) {m : FlexStatsReply} {r : Rib} {effects : List Effect}
    (hr : handleStatsReply w.rib agentId m = .ok (r, effects)) :
    Matched { w with rib := r, effects := w.effects ++ effects } ↔
      (w.rib.getBsFromAgent agentId = none →
        ∀ c, FitsAt w c agentId ((m.header.bind FlexHeader.xid).getD 0) offRequest) := by
  obtain ⟨r', hr', hr⟩ := bind_eq_ok_iff.mp hr
  obtain ⟨rfl, heffects⟩ := Prod.mk.inj (Except.ok.inj hr)
  cases hbs : w.rib.getBsFromAgent agentId with
  | some bs =>
    have hrefreshed := updateBsFromAgent_refreshed (.statsReply m) hr'
    rw [← heffects, hbs]
    refine iff_of_true (hm.mono ?_ ?_) (by simp)
    · intro b x a ha
      exact ⟨hrefreshed.memberOf_iff.mp ha, rfl⟩
    · intro id xid
      exact lastRequest_append_none (by simp)
  | none =>
    obtain rfl : w.rib = r' := by simpa [updateBsFromAgent, hbs] using hr'
    obtain rfl : effects = [.sendMsg agentId
        (statsRequestMsg ((m.header.bind FlexHeader.xid).getD 0) offRequest)] := by
      rw [← heffects, hbs]
      rfl
    -- the agent is told to stop reporting under the transaction id of the reply
    have hlast : ∀ id k, lastRequest (w.effects ++ [.sendMsg agentId
        (statsRequestMsg ((m.header.bind FlexHeader.xid).getD 0) offRequest)]) id k =
        if agentId = id ∧ (m.header.bind FlexHeader.xid).getD 0 = k then some offRequest
        else lastRequest w.effects id k := by
      intro id k
      rw [lastRequest_append, show lastRequest [_] id k = _ from last?_singleton _ _]
      simp only [requestTo?, statsRequestMsg, Option.bind_some, Option.getD_some]
      split <;> simp
    constructor
    · intro hm' _ c x a reqs ha hid hreqs
      obtain ⟨reqs', hreqs', hfits⟩ := hm' c x a ha
      obtain rfl := Option.some.inj (hreqs.symm.trans hreqs')
      have hfit := hfits ((m.header.bind FlexHeader.xid).getD 0)
      change Fits _ (lastRequest (w.effects ++ _) a.agentId _) at hfit
      rwa [hlast, if_pos ⟨hid.symm, rfl⟩] at hfit
    · intro hall b x a ha
      obtain ⟨reqs, hreqs, hfits⟩ := hm b x a ha
      refine ⟨reqs, hreqs, fun k => ?_⟩
      change Fits _ (lastRequest (w.effects ++ _) a.agentId k)
      rw [hlast]
      by_cases hk : agentId = a.agentId ∧ (m.header.bind FlexHeader.xid).getD 0 = k
      · rw [if_pos hk, ← hk.2]
        exact hall rfl b x a reqs ha hk.1.symm hreqs
      · rw [if_neg hk]
        exact hfits k

/-- A request that replaces the list of a base station. -/
theorem asked_accepted (h : Listing w) {b : UInt64}
    {proto reqs : FlexCompleteStatsRequestRepeated} (hlt : proto.reports.length < 2 ^ 31)
    (hreqs : w.app.bsList[b]? = some reqs) :
    Asked w
      { w with
        app := { bsList := w.app.bsList.insert b proto }
        effects := w.effects ++ (offEffects w.rib b reqs.reports.length ++
          requestEffects w.rib b proto.reports) }
      b proto
      (fun k => (proto.reports[k.toNat]?.map completeStatsRequest).or
        (if k.toNat < reqs.reports.length then some offRequest else none)) where
  memberOf_iff _ := .rfl
  stored := Std.ExtTreeMap.getElem?_insert_self
  others hc := by
    rw [Std.ExtTreeMap.getElem?_insert, if_neg]
    simpa using Ne.symm hc
  last k hagent := by
    rw [lastRequest_append, lastRequest_append, lastRequest_requestEffects hlt hagent,
      lastRequest_offEffects (h.size_lt b reqs hreqs) hagent]
  frame k hagent := by
    rw [lastRequest_append, lastRequest_others hagent, Option.none_or]
    intro f hf
    rw [offEffects_eq, requestEffects_eq, List.mem_append, mem_requests, mem_requests] at hf
    rcases hf with ⟨_, _, _, x, a, ha, rfl⟩ | ⟨_, _, _, x, a, ha, rfl⟩ <;> exact ⟨_, x, a, ha, rfl⟩

theorem matched_accepted_iff (h : Listing w) (hm : Matched w) {b : UInt64}
    {proto reqs : FlexCompleteStatsRequestRepeated} (hlt : proto.reports.length < 2 ^ 31)
    (hreqs : w.app.bsList[b]? = some reqs) :
    Matched
        { w with
          app := { bsList := w.app.bsList.insert b proto }
          effects := w.effects ++ (offEffects w.rib b reqs.reports.length ++
            requestEffects w.rib b proto.reports) } ↔
      ∀ x a, w.rib.MemberOf b x a → ∀ c ≠ b, ∀ xid : UInt32,
        (∀ r, proto.reports[xid.toNat]? = some r →
          FitsAt w c a.agentId xid (completeStatsRequest r)) ∧
        (proto.reports[xid.toNat]? = none → xid.toNat < reqs.reports.length →
          FitsAt w c a.agentId xid offRequest) := by
  rw [(asked_accepted h hlt hreqs).matched_iff hm]
  constructor
  · intro hall x a ha c hc k
    have hfits := (hall x a ha k).2 c hc
    constructor
    · intro r hr
      exact hfits _ (by rw [hr]; rfl)
    · intro hr hk
      exact hfits _ (by rw [hr, if_pos hk]; rfl)
  · intro hall x a ha k
    obtain ⟨reqs', hreqs', hfits⟩ := hm b x a ha
    obtain rfl := Option.some.inj (hreqs.symm.trans hreqs')
    cases hr : proto.reports[k.toNat]? with
    | some r =>
      refine ⟨carries_completeStatsRequest r, fun c hc req hreq => ?_⟩
      rw [← Option.some.inj hreq]
      exact (hall x a ha c hc k).1 r hr
    | none =>
      by_cases hk : k.toNat < reqs.reports.length
      · rw [if_pos hk]
        refine ⟨fits_none_offRequest, fun c hc req hreq => ?_⟩
        rw [← Option.some.inj hreq]
        exact (hall x a ha c hc k).2 hr hk
      · have hfit := hfits k
        rw [List.getElem?_eq_none (Nat.not_lt.mp hk)] at hfit
        rw [if_neg hk]
        exact ⟨hfit, fun c _ req hreq => absurd hreq (by simp)⟩

theorem StatsOutcome.matched_iff (ho : StatsOutcome parser w e w') (h : Listing w)
    (hm : Matched w) : Matched w' ↔ Harmless parser w e := by
  cases ho with
  | kept ho hkeys hquiet =>
    refine iff_of_true (hm.mono ?_ ?_) (harmless_of_kept ho hkeys)
    · rintro b y d ⟨bs, hbs, hd⟩
      exact ⟨⟨bs, hkeys ▸ hbs, hd⟩, rfl⟩
    · intro id xid
      apply lastRequest_append_none
      intro f hf
      obtain ⟨id, rfl⟩ := hquiet f hf
      rfl
  | formed x ha haccepts hfresh hcovers hr =>
    subst hr ha
    rw [matched_formed_iff h hm haccepts hfresh]
    have hcompletes := (completes_iff hfresh).mpr hcovers
    exact ⟨fun hd _ _ => hd, fun hharmless => hharmless haccepts hcompletes⟩
  | dissolved _ _ hd => exact iff_of_true (matched_dissolved hm hd) trivial
  | replied hr => exact matched_replied_iff hm hr
  | @accepted bs policy b proto reqs hbs hne hparse hreqs =>
    rw [matched_accepted_iff h hm (parser.size_lt _ _ hparse) hreqs]
    constructor
    · intro hall b' proto' reqs' hbs' _ hparse' hreqs'
      obtain rfl := Except.ok.inj (hbs.symm.trans hbs')
      obtain rfl := Option.some.inj (hparse.symm.trans hparse')
      obtain rfl := Option.some.inj (hreqs.symm.trans hreqs')
      exact hall
    · intro hharmless
      exact hharmless b proto reqs hbs hne hparse hreqs
  | rejected hrejected =>
    refine iff_of_true hm ?_
    intro b proto reqs hbs hne hparse
    rw [hrejected b hbs hne] at hparse
    exact absurd hparse (by simp)

/-! ## Runs -/

/-- A step that is not harmless does not fault. -/
theorem statsStep_total_of_not_harmless (h : Mirror w) (e : StatsEvent)
    (he : ¬ Harmless parser w e) : ∃ w', statsStep parser w e = .ok w' := by
  rcases statsStep_cases parser h e with ⟨w', hw', _⟩ | ⟨agentId, m, f, rfl, hf, _⟩
  · exact ⟨w', hw'⟩
  · simp only [Harmless, not_forall] at he
    obtain ⟨hnone, _⟩ := he
    rw [handleStatsReply, updateBsFromAgent, hnone] at hf
    exact absurd hf (by simp [bind, Except.bind, pure, Except.pure])

theorem always_matched_iff (parser : Parser) (events : List StatsEvent) :
    Always (statsStep parser) initial Matched events ↔
      EachStep (statsStep parser) initial (Harmless parser) events := by
  have hcases : ∀ w e w', Listing w → statsStep parser w e = .ok w' →
      StatsOutcome parser w e w' := by
    intro w e w' h hstep
    rcases statsStep_cases parser h.toMirror e with ⟨w'', hw'', ho⟩ | ⟨_, _, f, _, _, hf⟩
    · obtain rfl := Except.ok.inj (hw''.symm.trans hstep)
      exact ho
    · exact absurd (hf.symm.trans hstep) (by simp)
  exact always_iff_eachStep listing_initial matched_initial
    (fun w e w' h hstep => (hcases w e w' h hstep).listing h)
    (fun w e w' h hm hstep => (hcases w e w' h hstep).matched_iff h hm)
    (fun w e h _ he => statsStep_total_of_not_harmless h.toMirror e he) events

/-- In exactly the runs of harmless events the requests active at the agents are those the
manager has stored; and a request that does not parse sends nothing and changes nothing. -/
theorem statsRequests_matched_iff (parser : Parser) (events : List StatsEvent) :
    (Always (statsStep parser) initial Matched events ↔
      EachStep (statsStep parser) initial (Harmless parser) events) ∧
    ∀ (w : World StatsManager) bs policy errorReason, parser.parse policy = none →
      (exec (setStatsRequests parser bs policy errorReason) w).2 = w := by
  refine ⟨always_matched_iff parser events, ?_⟩
  intro w bs policy errorReason hparse
  obtain ⟨result, hexec, _⟩ :=
    @exec_setStatsRequests_rejected w parser bs policy errorReason fun _ _ _ => hparse
  rw [hexec]

/-! ## A base station that forms again -/

/-- A request for two periodical reports. -/
def twoReportsPolicy : String :=
  "\x7b\"reports\":[\x7b\"reportFrequency\":\"FLSRF_PERIODICAL\",\"sf\":100\x7d," ++
    "\x7b\"reportFrequency\":\"FLSRF_PERIODICAL\",\"sf\":200\x7d]\x7d"

def twoReports : FlexCompleteStatsRequestRepeated where
  reports :=
    [{ reportFrequency := some .periodical, sf := some 100 },
     { reportFrequency := some .periodical, sf := some 200 }]

/-- A parser that understands this request. -/
def twoReportsParser : Parser where
  parse policy := if policy = twoReportsPolicy then some twoReports else none
  size_lt policy proto h := by
    split at h
    · rw [← Option.some.inj h]
      decide
    · exact absurd h (by simp)

/-- Agents 1 and 2 form a base station, which is asked for two reports. Agent 2 leaves, and agent
3 takes its place. -/
def replacedAgent : List StatsEvent :=
  [.agent (.hello 1 { bsId := some 5, capabilities := [.lophy, .hiphy, .lomac] }
     .successfulOutcome "" 1),
   .agent (.hello 2 { bsId := some 5, capabilities := [.himac, .rlc, .pdcp, .sdap, .rrc] }
     .successfulOutcome "" 2),
   .setStatsRequests "1" twoReportsPolicy,
   .agent (.disconnect 2),
   .agent (.hello 3 { bsId := some 5, capabilities := [.himac, .rlc, .pdcp, .sdap, .rrc] }
     .successfulOutcome "" 3)]

/-- Agent 1 still sends the second report, of which the manager has no record. -/
theorem not_always_matched_replacedAgent :
    ¬ Always (statsStep twoReportsParser) initial Matched replacedAgent := by
  intro h
  have hfacts : (run (statsStep twoReportsParser) initial replacedAgent).map (fun w =>
      decide (w.rib.hasMember 5 1 ∧
        (w.app.bsList[(5 : UInt64)]?.map fun reqs => reqs.reports.length) = some 1 ∧
        ((lastRequest w.effects 1 1).bind fun req => req.reportFrequency) = some .periodical)) =
      .ok true := by decide +kernel
  obtain ⟨w, hrun, hmember, hreports, hlast⟩ := exists_ok_of_decide hfacts
  obtain ⟨x, a, ha, hid⟩ := hasMember_iff.mp hmember
  obtain ⟨reqs, hreqs, hlength⟩ := Option.map_eq_some_iff.mp hreports
  obtain ⟨req, hreq, hfrequency⟩ := Option.bind_eq_some_iff.mp hlast
  obtain ⟨reqs', hreqs', hfits⟩ := h replacedAgent w (List.prefix_refl _) hrun 5 x a ha
  obtain rfl := Option.some.inj (hreqs.symm.trans hreqs')
  have hfit := hfits 1
  rw [hid, hreq, List.getElem?_eq_none (by rw [hlength]; decide)] at hfit
  exact absurd (hfrequency.symm.trans hfit) (by decide)

end FlexRan.App.Stats
