import FlexRan.Lib.Rounding
import FlexRan.Rib.UeHistory

/-!
# Supervision of the base stations

Once every 1000 cycles of the task manager the management application asks the agents of all base
stations for their configurations, and looks how long nothing has been heard of each.  A base
station keeps the time at which it was heard last: some of the handlers of the updater set it, and
the constructor does.  The clock readings are those of the steady clock, in nanoseconds; the time
since the last one becomes a `float` of seconds, which is compared with 1.5.  By its rounding a time
is too long from 1499999936 nanoseconds on.

## Main definitions

* `RibManagement`, `loopStep`: messages of agents, and cycles with or without a poll.
* `Entry`, `diaryStep`: what has happened to each base station, and the RIB of each cycle.
* `Supervised`: the polls were made in time and asked all agents, nothing else was sent, and a base
  station is inactive if it had not been heard for too long at its last poll.
-/
namespace FlexRan.App.Management

open Lib Protocol Rib Rib.EnbRibInfo

/-! ## The time since a base station was heard -/

/-- `std::chrono::duration<float>` of a duration in nanoseconds: each operation on `float` rounds to
24 bits, and 64 bits of nanoseconds stay within its exponents. -/
def floatSeconds (d : ℤ) : ℚ := roundTo 24 (roundTo 24 (d : ℚ) / roundTo 24 1000000000)

/-- `inactive.count() >= 1.5`. -/
def tooLong (d : ℤ) : Bool := decide (3 / 2 ≤ floatSeconds d)

theorem floatSeconds_nonpos {d : ℤ} (h : d ≤ 0) : floatSeconds d ≤ 0 := by
  have hden : (0 : ℚ) < roundTo 24 1000000000 := roundTo_pos (by decide) (by norm_num)
  refine roundTo_nonpos 24 (div_nonpos_of_nonpos_of_nonneg ?_ hden.le)
  exact roundTo_nonpos 24 (Int.cast_nonpos.mpr h)

theorem floatSeconds_le {c d : ℤ} (hc : 0 < c) (h : c ≤ d) : floatSeconds c ≤ floatSeconds d := by
  have hden : (0 : ℚ) < roundTo 24 1000000000 := roundTo_pos (by decide) (by norm_num)
  have hc' : (0 : ℚ) < c := Int.cast_pos.mpr hc
  refine roundTo_le_roundTo (by decide) (div_pos (roundTo_pos (by decide) hc') hden) ?_
  refine div_le_div_of_nonneg_right ?_ hden.le
  exact roundTo_le_roundTo (by decide) hc' (Int.cast_le.mpr h)

theorem tooLong_iff {d : ℤ} : tooLong d = true ↔ 1499999936 ≤ d := by
  rw [tooLong, decide_eq_true_iff]
  constructor
  · intro hlong
    by_contra hlt
    have hle : d ≤ 1499999935 := by omega
    rcases le_or_gt d 0 with hd | hd
    · have hneg := hlong.trans (floatSeconds_nonpos hd)
      norm_num at hneg
    · have hbelow : floatSeconds 1499999935 < 3 / 2 := by decide +kernel
      exact absurd (hlong.trans (floatSeconds_le hd hle)) hbelow.not_ge
  · intro hge
    have hreached : 3 / 2 ≤ floatSeconds 1499999936 := by decide +kernel
    exact hreached.trans (floatSeconds_le (by norm_num) hge)

/-! ## The application and the loop -/

structure RibManagement where
  rib : Rib := {}
  /-- `last_checked` of a base station, if there is one. -/
  lastChecked : UInt64 → Option ℤ := fun _ => none
  inactiveBs : Std.ExtTreeSet UInt64 := ∅
  /-- The number of the cycle. -/
  t : ℕ := 0
  sent : List Effect := []

/-- The messages whose handlers call `update_liveness`. -/
def updatesLiveness (inMessage : FlexranMessage) : Bool :=
  match inMessage.msg with
  | .echoReply _ | .sfTrigger _ | .enbConfigReply _ | .ueConfigReply _ | .lcConfigReply _ => true
  | _ => false

def enbConfigRequest : FlexranMessage where
  msgDir := some .initiatingMessage
  msg := .enbConfigRequest
    (some { type := some flptGetEnbConfigRequest, version := some 0, xid := some 0 })

def ueConfigRequest : FlexranMessage where
  msgDir := some .initiatingMessage
  msg := .ueConfigRequest
    (some { type := some flptGetUeConfigRequest, version := some 0, xid := some 0 })

def lcConfigRequest : FlexranMessage where
  msgDir := some .initiatingMessage
  msg := .lcConfigRequest
    (some { type := some flptGetLcConfigRequest, version := some 0, xid := some 0 })

/-- `send_enb_config_request`, `send_ue_config_request` and `send_lc_config_request`. -/
def sendConfigRequests (r : Rib) (bsId : UInt64) : List Effect :=
  sendToBs r bsId enbConfigRequest ++ sendToBs r bsId ueConfigRequest ++
    sendToBs r bsId lcConfigRequest

/-- An event of the loop of the task manager, with the time of the steady clock. -/
inductive LoopEvent
  | message (e : Received) (now : ℤ)
  | tick (now : ℤ)

namespace RibManagement

def dispatch (s : RibManagement) (e : Received) (now : ℤ) : Except Fault RibManagement := do
  let rib ← receive s.rib e
  return { s with
    rib := rib
    lastChecked := fun b =>
      if b ∈ rib.eNBConfigs then
        if b ∉ s.rib.eNBConfigs then some now
        else if updatesLiveness e.msg ∧ s.rib.getBsId e.agentId = b then some now
        else s.lastChecked b
      else none }

/-- One round of the loop of `tick`. -/
def pollBs (now : ℤ) (s : RibManagement) (bsId : UInt64) : Except Fault RibManagement :=
  let s := { s with sent := s.sent ++ sendConfigRequests s.rib bsId }
  match s.lastChecked bsId with
  | none => .error .nullDereference
  | some lastActive =>
    if tooLong (now - lastActive) then .ok { s with inactiveBs := s.inactiveBs.insert bsId }
    else .ok { s with inactiveBs := s.inactiveBs.erase bsId }

def tick (now : ℤ) (s : RibManagement) : Except Fault RibManagement :=
  s.rib.getAvailableBaseStations.foldlM (pollBs now) s

/-- The application subscribes with period 1000 and start 0. -/
def loopStep (s : RibManagement) : LoopEvent → Except Fault RibManagement
  | .message e now => s.dispatch e now
  | .tick now => do
    let s ← if s.t % 1000 = 0 then s.tick now else .ok s
    return { s with t := s.t + 1 }

end RibManagement

/-! ## The diary -/

inductive Entry
  | formed (t : ℕ) (now : ℤ)
  | heard (now : ℤ)
  | polled (t : ℕ) (now : ℤ)

namespace Entry

def heardAt : Entry → Option ℤ
  | formed _ now | heard now => some now
  | polled _ _ => none

def pollCycle : Entry → Option ℕ
  | polled t _ => some t
  | formed _ _ | heard _ => none

def isFormed : Entry → Bool
  | formed _ _ => true
  | heard _ | polled _ _ => false

end Entry

/-- The loop with what has happened to each base station. -/
structure Diary where
  loop : RibManagement := {}
  entries : UInt64 → List Entry := fun _ => []
  /-- The RIB at the beginning of each cycle. -/
  cycles : List Rib := []

/-- What an event says of a base station. -/
def entriesOf (s s' : RibManagement) (b : UInt64) : LoopEvent → List Entry
  | .message e now =>
    if b ∉ s'.rib.eNBConfigs then []
    else if b ∉ s.rib.eNBConfigs then [.formed s.t now]
    else if updatesLiveness e.msg ∧ s.rib.getBsId e.agentId = b then [.heard now]
    else []
  | .tick now => if s.t % 1000 = 0 ∧ b ∈ s.rib.eNBConfigs then [.polled s.t now] else []

/-- The RIB of the cycle, if the event is one. -/
def cycleOf (s : RibManagement) : LoopEvent → List Rib
  | .message _ _ => []
  | .tick _ => [s.rib]

def diaryStep (d : Diary) (e : LoopEvent) : Except Fault Diary := do
  let s ← d.loop.loopStep e
  return {
    loop := s
    entries := fun b => d.entries b ++ entriesOf d.loop s b e
    cycles := d.cycles ++ cycleOf d.loop e }

/-- At the last poll of the diary nothing had been heard for 1.5 seconds, less the 64 nanoseconds
that are lost in the rounding. -/
def Suspect (l : List Entry) : Prop :=
  ∃ pre t now post, l = pre ++ .polled t now :: post ∧ (∀ e ∈ post, e.pollCycle = none) ∧
    ∃ lastActive ∈ last? Entry.heardAt pre, 1499999936 ≤ now - lastActive

/-- What has happened since the base station was formed: the cycles of its polls are the
multiples of 1000. -/
structure Polled (t : ℕ) (pre : List Entry) (f : ℕ) (now : ℤ) (post l : List Entry) : Prop where
  entries : l = pre ++ .formed f now :: post
  since : ∀ e ∈ post, e.isFormed = false
  start : f ≤ t
  polls : post.filterMap Entry.pollCycle = (List.range' f (t - f)).filter (· % 1000 = 0)

/-- The messages of a poll: the agents of each base station are sent three requests. -/
def requestsOf (r : Rib) : List Effect :=
  r.eNBConfigs.toList.flatMap fun e =>
    [enbConfigRequest, ueConfigRequest, lcConfigRequest].flatMap fun msg =>
      e.2.agents.toList.map fun a => .sendMsg a.2.agentId msg

/-- All that is sent in a number of cycles. -/
def sentIn (cycles : List Rib) : List Effect :=
  cycles.zipIdx.flatMap fun c => if c.2 % 1000 = 0 then requestsOf c.1 else []

structure Supervised (d : Diary) : Prop where
  cycle : d.cycles.length = d.loop.t
  /-- The requests to the agents that were there in the multiples of 1000 have been sent, and
  nothing else. -/
  sent : d.loop.sent = sentIn d.cycles
  inactive : ∀ b, b ∈ d.loop.inactiveBs ↔ Suspect (d.entries b)
  /-- A base station has been polled in all multiples of 1000 since it was formed, and it was there
  in all cycles since, with the agents that it has now. -/
  polled : ∀ (b : UInt64) bs, d.loop.rib.eNBConfigs[b]? = some bs →
    ∃ pre f now post, Polled d.loop.t pre f now post (d.entries b) ∧
      ∀ c r, f ≤ c → d.cycles[c]? = some r →
        ∃ bs', r.eNBConfigs[b]? = some bs' ∧ bs'.agents = bs.agents

/-! ## Suspicion -/

section Suspect

variable {l : List Entry}

/-- A split at an entry, when one more has been appended. -/
theorem concat_eq_append_cons {pre post : List Entry} {e p : Entry}
    (h : l ++ [e] = pre ++ p :: post) :
    (pre = l ∧ p = e ∧ post = []) ∨ ∃ post', post = post' ++ [e] ∧ l = pre ++ p :: post' := by
  rcases List.eq_nil_or_concat post with rfl | ⟨post', e', rfl⟩
  · obtain ⟨hl, he⟩ := List.append_inj' h rfl
    cases he
    exact .inl ⟨hl.symm, rfl, rfl⟩
  · rw [List.concat_eq_append, ← List.cons_append, ← List.append_assoc] at h
    obtain ⟨hl, he⟩ := List.append_inj' h rfl
    cases he
    exact .inr ⟨post', by simp, hl⟩

theorem not_suspect_nil : ¬ Suspect [] := by
  rintro ⟨pre, t, now, post, h, -⟩
  simp at h

theorem suspect_concat_polled {t : ℕ} {now : ℤ} :
    Suspect (l ++ [.polled t now]) ↔
      ∃ lastActive ∈ last? Entry.heardAt l, 1499999936 ≤ now - lastActive := by
  constructor
  · rintro ⟨pre, t', now', post, h, hpost, hlong⟩
    rcases concat_eq_append_cons h with ⟨rfl, he, rfl⟩ | ⟨post', rfl, -⟩
    · cases he
      exact hlong
    · have hnone := hpost (.polled t now) (by simp)
      simp [Entry.pollCycle] at hnone
  · intro hlong
    exact ⟨l, t, now, [], rfl, by simp, hlong⟩

theorem suspect_append_of_none {es : List Entry} (hes : ∀ e ∈ es, e.pollCycle = none) :
    Suspect (l ++ es) ↔ Suspect l := by
  induction es using List.reverseRecOn with
  | nil => rw [List.append_nil]
  | append_singleton es e ih =>
    rw [← ih fun e' he' => hes e' (by simp [he']), ← List.append_assoc]
    constructor
    · rintro ⟨pre, t, now, post, h, hpost, hlong⟩
      rcases concat_eq_append_cons h with ⟨-, he, -⟩ | ⟨post', rfl, hl⟩
      · have hnone := hes e (by simp)
        rw [← he] at hnone
        simp [Entry.pollCycle] at hnone
      · exact ⟨pre, t, now, post', hl, fun e' he' => hpost e' (by simp [he']), hlong⟩
    · rintro ⟨pre, t, now, post, hl, hpost, hlong⟩
      refine ⟨pre, t, now, post ++ [e], by simp [hl], ?_, hlong⟩
      intro e' he'
      rcases List.mem_append.mp he' with he' | he'
      · exact hpost e' he'
      · exact hes e' (by simp [List.mem_singleton.mp he'])

end Suspect

/-! ## Polls -/

namespace Polled

variable {t f : ℕ} {now : ℤ} {pre post l : List Entry}

/-- What is heard between the cycles. -/
theorem hear (h : Polled t pre f now post l) {es : List Entry}
    (hes : ∀ e ∈ es, e.isFormed = false ∧ e.pollCycle = none) :
    Polled t pre f now (post ++ es) (l ++ es) where
  entries := by simp [h.entries]
  since e he := by
    rcases List.mem_append.mp he with he | he
    · exact h.since e he
    · exact (hes e he).1
  start := h.start
  polls := by
    have hnone : es.filterMap Entry.pollCycle = [] :=
      List.filterMap_eq_nil_iff.mpr fun e he => (hes e he).2
    rw [List.filterMap_append, hnone, List.append_nil, h.polls]

/-- A cycle with or without a poll. -/
theorem cycle (h : Polled t pre f now post l) (now' : ℤ) :
    Polled (t + 1) pre f now (post ++ if t % 1000 = 0 then [.polled t now'] else [])
      (l ++ if t % 1000 = 0 then [.polled t now'] else []) where
  entries := by simp [h.entries]
  since e he := by
    rcases List.mem_append.mp he with he | he
    · exact h.since e he
    · split at he
      · rw [List.mem_singleton.mp he]
        rfl
      · simp at he
  start := Nat.le_succ_of_le h.start
  polls := by
    have hstart := h.start
    have hlen : t + 1 - f = t - f + 1 := by omega
    have hlast : f + (t - f) = t := by omega
    rw [List.filterMap_append, h.polls, hlen, List.range'_concat, List.filter_append, Nat.one_mul,
      hlast]
    split
    · rename_i hmul
      simp [Entry.pollCycle, hmul]
    · rename_i hmul
      simp [hmul]

end Polled

/-! ## One tick -/

section Tick

/-- The loop over the base stations: it asks all of them, and compares the times. -/
theorem foldlM_pollBs (now : ℤ) (bss : List UInt64) (s : RibManagement)
    (hchecked : ∀ b ∈ bss, ∃ lastActive, s.lastChecked b = some lastActive) :
    ∃ s', bss.foldlM (RibManagement.pollBs now) s = .ok s' ∧ s'.rib = s.rib ∧
      s'.lastChecked = s.lastChecked ∧ s'.t = s.t ∧
      s'.sent = s.sent ++ bss.flatMap (sendConfigRequests s.rib) ∧
      ∀ b, b ∈ s'.inactiveBs ↔
        if b ∈ bss then ∃ lastActive ∈ s.lastChecked b, 1499999936 ≤ now - lastActive
        else b ∈ s.inactiveBs := by
  induction bss using List.reverseRecOn with
  | nil => exact ⟨s, rfl, rfl, rfl, rfl, by simp, by simp⟩
  | append_singleton bss b ih =>
    obtain ⟨u, hu, hrib, hlast, ht, hsent, hinactive⟩ := ih fun c hc => hchecked c (by simp [hc])
    obtain ⟨lastActive, hactive⟩ := hchecked b (by simp)
    have hstep : RibManagement.pollBs now u b = .ok { u with
        sent := u.sent ++ sendConfigRequests s.rib b
        inactiveBs := if tooLong (now - lastActive) then u.inactiveBs.insert b
          else u.inactiveBs.erase b } := by
      rw [RibManagement.pollBs, hrib, hlast]
      simp only [hactive]
      split <;> rfl
    have hrun : run (RibManagement.pollBs now) s (bss ++ [b]) = _ :=
      run_concat_eq_ok.mpr ⟨u, hu, hstep⟩
    refine ⟨_, hrun, hrib, hlast, ht, by simp [hsent], ?_⟩
    intro c
    by_cases hc : c = b
    · subst hc
      simp only [List.mem_append, List.mem_singleton, or_true, if_true, hactive, Option.mem_def,
        Option.some.injEq, exists_eq_left']
      split
      · rename_i hlong
        simp [tooLong_iff.mp hlong]
      · rename_i hlong
        simp [mt tooLong_iff.mpr hlong]
    · have hmem : c ∈ bss ++ [b] ↔ c ∈ bss := by simp [hc]
      simp only [hmem, ← hinactive]
      split
      · simp [Ne.symm hc]
      · simp [Ne.symm hc]

/-- A poll asks all agents of all base stations. -/
theorem flatMap_sendConfigRequests (r : Rib) :
    r.getAvailableBaseStations.flatMap (sendConfigRequests r) = requestsOf r := by
  rw [Rib.getAvailableBaseStations, List.flatMap_map, requestsOf]
  refine List.flatMap_congr fun e he => ?_
  have hbs : r.eNBConfigs[e.1]? = some e.2 := Std.ExtTreeMap.mem_toList_iff_getElem?_eq_some.mp he
  simp [sendConfigRequests, sendToBs_eq hbs]

theorem sentIn_concat (cycles : List Rib) (r : Rib) :
    sentIn (cycles ++ [r]) =
      sentIn cycles ++ if cycles.length % 1000 = 0 then requestsOf r else [] := by
  simp [sentIn, List.zipIdx_append]

/-- A cycle, with a poll in the multiples of 1000. -/
theorem loopStep_tick (now : ℤ) (s : RibManagement)
    (hchecked : ∀ b ∈ s.rib.eNBConfigs, ∃ lastActive, s.lastChecked b = some lastActive) :
    ∃ s', s.loopStep (.tick now) = .ok s' ∧ s'.rib = s.rib ∧
      s'.lastChecked = s.lastChecked ∧ s'.t = s.t + 1 ∧
      s'.sent = s.sent ++ (if s.t % 1000 = 0 then requestsOf s.rib else []) ∧
      ∀ b, b ∈ s'.inactiveBs ↔
        if s.t % 1000 = 0 ∧ b ∈ s.rib.eNBConfigs then
          ∃ lastActive ∈ s.lastChecked b, 1499999936 ≤ now - lastActive
        else b ∈ s.inactiveBs := by
  by_cases hmul : s.t % 1000 = 0
  · have hmem : ∀ b, b ∈ s.rib.getAvailableBaseStations ↔ b ∈ s.rib.eNBConfigs := fun _ =>
      Rib.mem_availableBaseStations
    obtain ⟨u, hu, hrib, hlast, ht, hsent, hinactive⟩ := foldlM_pollBs now
      s.rib.getAvailableBaseStations s fun b hb => hchecked b ((hmem b).mp hb)
    rw [flatMap_sendConfigRequests] at hsent
    refine ⟨{ u with t := u.t + 1 }, ?_, hrib, hlast, congrArg (· + 1) ht, ?_, ?_⟩
    · simp only [RibManagement.loopStep, hmul, if_true, RibManagement.tick, hu]
      rfl
    · simpa [hmul] using hsent
    · intro b
      simpa [hmul, hmem] using hinactive b
  · refine ⟨{ s with t := s.t + 1 }, ?_, rfl, rfl, rfl, by simp [hmul], by simp [hmul]⟩
    simp only [RibManagement.loopStep, hmul, if_false]
    rfl

end Tick

/-! ## The invariant -/

structure Diary.Inv (d : Diary) : Prop where
  inv : Rib.Inv d.loop.rib
  reachable : App.Log.BsReachable d.loop.rib
  checked : ∀ b ∈ d.loop.rib.eNBConfigs, ∃ lastActive, d.loop.lastChecked b = some lastActive ∧
    last? Entry.heardAt (d.entries b) = some lastActive
  supervised : Supervised d

section Invariant

variable {d d' : Diary}

theorem diaryInv_initial : Diary.Inv {} where
  inv := inv_empty
  reachable _ _ hbs := by simp at hbs
  checked b hb := by simp at hb
  supervised :=
    { cycle := rfl
      sent := rfl
      inactive := fun b => by simp [not_suspect_nil]
      polled := fun b bs hbs => by simp at hbs }

theorem pollCycle_of_message {s s' : RibManagement} {b : UInt64} {e : Received} {now : ℤ} :
    ∀ entry ∈ entriesOf s s' b (.message e now), entry.pollCycle = none := by
  intro entry hentry
  rw [entriesOf] at hentry
  split_ifs at hentry
  · rw [List.mem_singleton.mp hentry]
    rfl
  · simp at hentry
  · rw [List.mem_singleton.mp hentry]
    rfl
  · simp at hentry

/-- A message leaves the polls alone. -/
theorem dispatch_cases {s s' : RibManagement} {e : Received} {now : ℤ}
    (h : s.dispatch e now = .ok s') :
    receive s.rib e = .ok s'.rib ∧ s'.inactiveBs = s.inactiveBs ∧ s'.t = s.t ∧ s'.sent = s.sent ∧
      s'.lastChecked = fun b =>
        if b ∈ s'.rib.eNBConfigs then
          if b ∉ s.rib.eNBConfigs then some now
          else if updatesLiveness e.msg ∧ s.rib.getBsId e.agentId = b then some now
          else s.lastChecked b
        else none := by
  obtain ⟨rib, hrib, h⟩ := bind_eq_ok_iff.mp h
  cases h
  exact ⟨hrib, rfl, rfl, rfl, rfl⟩

/-- What the next poll checks is when the base station was last heard. -/
theorem Diary.Inv.checked_message (h : d.Inv) {e : Received} {now : ℤ} {s' : RibManagement}
    (hs' : d.loop.dispatch e now = .ok s') :
    ∀ b ∈ s'.rib.eNBConfigs, ∃ lastActive, s'.lastChecked b = some lastActive ∧
      last? Entry.heardAt (d.entries b ++ entriesOf d.loop s' b (.message e now)) =
        some lastActive := by
  obtain ⟨-, -, -, -, hlast⟩ := dispatch_cases hs'
  intro b hb
  by_cases hold : b ∈ d.loop.rib.eNBConfigs
  · obtain ⟨lastActive, hactive, hheard⟩ := h.checked b hold
    by_cases hlive : updatesLiveness e.msg ∧ d.loop.rib.getBsId e.agentId = b
    · refine ⟨now, by simp [hlast, hb, hold, hlive], ?_⟩
      rw [entriesOf, if_neg (not_not.mpr hb), if_neg (not_not.mpr hold), if_pos hlive,
        last?_append, last?_singleton]
      rfl
    · refine ⟨lastActive, by simp [hlast, hb, hold, hlive, hactive], ?_⟩
      rw [entriesOf, if_neg (not_not.mpr hb), if_neg (not_not.mpr hold), if_neg hlive,
        List.append_nil, hheard]
  · refine ⟨now, by simp [hlast, hb, hold], ?_⟩
    rw [entriesOf, if_neg (not_not.mpr hb), if_pos hold, last?_append, last?_singleton]
    rfl

/-- A message forms a base station, or the one that is there has been polled as before. -/
theorem Diary.Inv.polled_message (h : d.Inv) {e : Received} {now : ℤ} {s' : RibManagement}
    (hs' : d.loop.dispatch e now = .ok s') (b : UInt64) (bs' : EnbRibInfo)
    (hbs' : s'.rib.eNBConfigs[b]? = some bs') :
    ∃ pre f start post, Polled d.loop.t pre f start post
        (d.entries b ++ entriesOf d.loop s' b (.message e now)) ∧
      ∀ c r, f ≤ c → d.cycles[c]? = some r →
        ∃ bs, r.eNBConfigs[b]? = some bs ∧ bs.agents = bs'.agents := by
  obtain ⟨hrib, -⟩ := dispatch_cases hs'
  obtain ⟨hmem', -⟩ := Std.ExtTreeMap.getElem?_eq_some_iff.mp hbs'
  rcases receive_baseStation h.inv hrib hbs' with ⟨hnew, -⟩ | ⟨bs, hbs, hrun⟩
  · -- the base station has been formed after all the cycles so far
    refine ⟨d.entries b, d.loop.t, now, [], ⟨?_, by simp, le_rfl, by simp⟩, ?_⟩
    · rw [entriesOf, if_neg (not_not.mpr hmem'), if_pos hnew]
    · intro c r hc hr
      obtain ⟨hlt, -⟩ := List.getElem?_eq_some_iff.mp hr
      have hcycle := h.supervised.cycle
      omega
  · obtain ⟨hmem, -⟩ := Std.ExtTreeMap.getElem?_eq_some_iff.mp hbs
    obtain ⟨pre, f, start, post, hpolled, hthere⟩ := h.supervised.polled b bs hbs
    have hagents : bs'.agents = bs.agents := (foldlM_same (fun _ _ _ => step_same) hrun).2
    have hes : ∀ entry ∈ entriesOf d.loop s' b (.message e now),
        entry.isFormed = false ∧ entry.pollCycle = none := by
      intro entry hentry
      refine ⟨?_, pollCycle_of_message entry hentry⟩
      rw [entriesOf, if_neg (not_not.mpr hmem'), if_neg (not_not.mpr hmem)] at hentry
      split_ifs at hentry
      · rw [List.mem_singleton.mp hentry]
        rfl
      · simp at hentry
    exact ⟨pre, f, start, _, hpolled.hear hes, hagents ▸ hthere⟩

theorem Diary.Inv.message (h : d.Inv) {e : Received} {now : ℤ}
    (hstep : diaryStep d (.message e now) = .ok d') : d'.Inv := by
  obtain ⟨s', hs', hd'⟩ := bind_eq_ok_iff.mp hstep
  cases hd'
  obtain ⟨hrib, hinactive, ht, hsent, -⟩ := dispatch_cases hs'
  obtain ⟨hinv, hreach⟩ := sound_receive ⟨h.inv, h.reachable⟩ hrib
  have hcycles : d.cycles ++ cycleOf d.loop (.message e now) = d.cycles := List.append_nil _
  refine ⟨hinv, hreach, h.checked_message hs', ?_, ?_, ?_, ?_⟩
  · dsimp only
    rw [hcycles, ht]
    exact h.supervised.cycle
  · dsimp only
    rw [hcycles, hsent]
    exact h.supervised.sent
  · intro b
    rw [suspect_append_of_none pollCycle_of_message, hinactive]
    exact h.supervised.inactive b
  · intro b bs' hbs'
    dsimp only
    rw [ht, hcycles]
    exact h.polled_message hs' b bs' hbs'

theorem Diary.Inv.tick (h : d.Inv) {now : ℤ} (hstep : diaryStep d (.tick now) = .ok d') :
    d'.Inv := by
  obtain ⟨s', hs', hd'⟩ := bind_eq_ok_iff.mp hstep
  cases hd'
  obtain ⟨s'', hs'', hrib, hlast, ht, hsent, hinactive⟩ :=
    loopStep_tick now d.loop fun b hb => (h.checked b hb).imp fun _ => And.left
  cases hs''.symm.trans hs'
  refine ⟨hrib ▸ h.inv, hrib ▸ h.reachable, ?_, ?_, ?_, ?_, ?_⟩
  · intro b hb
    dsimp only at hb ⊢
    rw [hrib] at hb
    obtain ⟨lastActive, hactive, hheard⟩ := h.checked b hb
    refine ⟨lastActive, by rw [hlast, hactive], ?_⟩
    rw [last?_append, hheard, entriesOf]
    split <;> rfl
  · dsimp only
    rw [ht, cycleOf, List.length_append, h.supervised.cycle, List.length_singleton]
  · dsimp only
    rw [hsent, h.supervised.sent, cycleOf, sentIn_concat, h.supervised.cycle]
  · intro b
    dsimp only
    rw [hinactive, entriesOf]
    split
    · rename_i hpoll
      obtain ⟨lastActive, hactive, hheard⟩ := h.checked b hpoll.2
      rw [suspect_concat_polled, hactive, hheard]
    · rw [List.append_nil]
      exact h.supervised.inactive b
  · intro b bs hbs
    dsimp only at hbs ⊢
    rw [hrib] at hbs
    obtain ⟨hmem, -⟩ := Std.ExtTreeMap.getElem?_eq_some_iff.mp hbs
    obtain ⟨pre, f, start, post, hpolled, hthere⟩ := h.supervised.polled b bs hbs
    have hentries : entriesOf d.loop s' b (.tick now) =
        if d.loop.t % 1000 = 0 then [.polled d.loop.t now] else [] := by
      simp only [entriesOf, hmem, and_true]
    rw [hentries, ht, cycleOf]
    refine ⟨pre, f, start, _, hpolled.cycle now, ?_⟩
    intro c r hc hr
    by_cases hlast : c < d.cycles.length
    · rw [List.getElem?_append_left hlast] at hr
      exact hthere c r hc hr
    · rw [List.getElem?_append_right (not_lt.mp hlast)] at hr
      obtain rfl := List.mem_singleton.mp (List.mem_of_getElem? hr)
      exact ⟨bs, hbs, rfl⟩

end Invariant

/-- In every run of the loop all that is sent are the three requests to each agent in the multiples
of 1000, a base station is inactive exactly if it had not been heard for too long when it was polled
last, the base stations that are there have been polled in all multiples of 1000 since they were
formed, and the next cycle is no fault. -/
theorem supervised_of_run {events : List LoopEvent} {s : RibManagement}
    (hrun : run RibManagement.loopStep {} events = .ok s) :
    (∃ d, run diaryStep {} events = .ok d ∧ d.loop = s ∧ Supervised d) ∧
    ∀ now, ∃ s', s.loopStep (.tick now) = .ok s' := by
  have hmap := run_map Diary.loop (fun (d : Diary) (e : LoopEvent) =>
    show (diaryStep d e).map Diary.loop = d.loop.loopStep e by
      rw [diaryStep]
      cases d.loop.loopStep e <;> rfl) {} events
  rw [hrun] at hmap
  cases hd : run diaryStep {} events with
  | error f =>
    rw [hd] at hmap
    cases hmap
  | ok d =>
    rw [hd] at hmap
    cases hmap
    have hinv : d.Inv := by
      refine run_invariant ?_ diaryInv_initial hd
      intro d e d' h hstep
      cases e with
      | message e now => exact h.message hstep
      | tick now => exact h.tick hstep
    refine ⟨⟨d, rfl, rfl, hinv.supervised⟩, fun now => ?_⟩
    obtain ⟨s', hs', -⟩ := loopStep_tick now d.loop fun b hb =>
      (hinv.checked b hb).imp fun _ => And.left
    exact ⟨s', hs'⟩

/-- A base station is formed, and polled when it has not been heard for two seconds. -/
def silentHost : List LoopEvent :=
  [.message { agentId := 0, msg := ⟨some .successfulOutcome, .hello
      { bsId := some 1, capabilities := defaultCapabilities, splits := [.if4p5] }⟩ } 0,
   .tick 2000000000, .tick 2001000000]

/-- The three requests are sent in the first of the two cycles only. -/
theorem supervised_silentHost : ∃ s,
    run RibManagement.loopStep {} silentHost = .ok s ∧ 1 ∈ s.inactiveBs ∧ s.sent.length = 3 ∧
    (∃ d, run diaryStep {} silentHost = .ok d ∧ d.loop = s ∧ Supervised d) ∧
    ∀ now, ∃ s', s.loopStep (.tick now) = .ok s' := by
  have hfacts : (run RibManagement.loopStep {} silentHost).map
      (fun s => decide (1 ∈ s.inactiveBs ∧ s.sent.length = 3)) = .ok true := by
    decide +kernel
  obtain ⟨s, hrun, hinactive, hsent⟩ := exists_ok_of_decide hfacts
  exact ⟨s, hrun, hinactive, hsent, supervised_of_run hrun⟩

end FlexRan.App.Management
