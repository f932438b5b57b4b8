import FlexRan.App.UeMoves

/-!
# Rules and the slices of base stations

The rules are global, while the slices belong to a base station and may come and go.  That a slice
exists is only checked at the base station a rule is set for.  In a history of messages and
requests, what is sent when a UE is updated names slices of its base station exactly if the rules
that decide are for such slices.

## Main definitions

* `RrmEvent`, `rrmStep`: messages of agents and the requests about slices.
* `SafeTrace`: a command for a UE names slices of its base station.
* `Covered`: the rule that decides is for a slice of the base station.
* `eachStep_safe_iff`: the histories in which no command names a slice that does not exist.
-/
namespace FlexRan.App.Rrm

open Lib Lib.Operation Protocol Rib

variable {ρ : Type}

/-! ## Histories -/

inductive RrmEvent
  | message (m : Received)
  | applySlices (bs policy : String)
  | removeSlices (bs policy : String)
  | associate (bs policy : String) (dlSliceId ulSliceId : Int32)

/-- A message is handled together with the updates of UEs it raises. -/
def rrmStep (engine : RegexEngine ρ) (parse : String → Option FlexSliceConfig)
    (w : World (RrmManagement ρ)) : RrmEvent → Except Fault (World (RrmManagement ρ))
  | .message m => settle (handle (subscribers engine)
      fun r => dispatchMessage r m.agentId m.msg m.endpoint m.want) w
  | .applySlices bs policy => settle (applySliceConfigPolicy parse bs policy) w
  | .removeSlices bs policy => settle (removeSlice parse bs policy) w
  | .associate bs policy dlSliceId ulSliceId =>
    settle (autoUeSliceAssociation engine bs policy dlSliceId ulSliceId) w

/-- The UE configurations that are sent when a UE of a base station is updated name slices the
base station has. -/
def SafeTrace (r : Rib) (sent : List Effect) : Prop :=
  ∀ b rnti, .ueUpdate b rnti ∈ sent → ∀ id msg reply, .sendMsg id msg ∈ sent →
    msg.msg = .ueConfigReply reply → ∀ c ∈ reply.ueConfig, ∀ (d : Direction) slice,
      d.sliceId c = some slice → hasId (current r b d).slices slice

/-- Whatever a step sends is safe in the state after it. -/
def SafeStep (engine : RegexEngine ρ) (parse : String → Option FlexSliceConfig)
    (w : World (RrmManagement ρ)) (e : RrmEvent) : Prop :=
  ∀ w' sent, rrmStep engine parse w e = .ok w' → w'.effects = w.effects ++ sent →
    SafeTrace w'.rib sent

/-- In each direction in which the UE reports a slice, the last rule that asks the UE to leave it
is for a slice of the base station. -/
def Covered (engine : RegexEngine ρ) (s : RrmManagement ρ) (r : Rib) (b : UInt64)
    (ue : FlexUeConfig) : Prop :=
  ∀ (d : Direction) id, d.sliceId ue = some id → ∀ pre p post, d.rules s = pre ++ p :: post →
    Asks engine ue id p → (∀ q ∈ post, ¬ Asks engine ue id q) → hasId (current r b d).slices p.2

/-- The UEs that a message updates are covered, once the message is in the RIB. -/
def CoveredStep (engine : RegexEngine ρ) (w : World (RrmManagement ρ)) : RrmEvent → Prop
  | .message m => ∀ r' raised,
      dispatchMessage w.rib m.agentId m.msg m.endpoint m.want = .ok (r', raised) →
        ∀ b rnti, .ueUpdate b rnti ∈ raised → ∀ ue, ueOf r' b rnti = some ue →
          Covered engine w.app r' b ue
  | .applySlices _ _ | .removeSlices _ _ | .associate _ _ _ _ => True

/-! ## Requests -/

section Request

/-- The RIB stays, and all that is asked for are messages. -/
def SendsOnly (w w' : World (RrmManagement ρ)) : Prop :=
  w'.rib = w.rib ∧
    ∃ sent, w'.effects = w.effects ++ sent ∧ ∀ e ∈ sent, ∃ id msg, e = .sendMsg id msg

theorem sendsOnly_trans (w₁ w₂ w₃ : World (RrmManagement ρ)) (h₁ : SendsOnly w₁ w₂)
    (h₂ : SendsOnly w₂ w₃) : SendsOnly w₁ w₃ := by
  obtain ⟨hrib₁, sent₁, heffects₁, hsent₁⟩ := h₁
  obtain ⟨hrib₂, sent₂, heffects₂, hsent₂⟩ := h₂
  refine ⟨hrib₂.trans hrib₁, sent₁ ++ sent₂, ?_, fun e he => ?_⟩
  · rw [heffects₂, heffects₁, List.append_assoc]
  · exact (List.mem_append.mp he).elim (hsent₁ e) (hsent₂ e)

theorem sendsOnly_refl (w : World (RrmManagement ρ)) : SendsOnly w w := ⟨rfl, [], by simp, by simp⟩

theorem sendsOnly_of_silent {β : Type} {m : Op (RrmManagement ρ) β} (h : Silent m) :
    Keeps SendsOnly m := by
  intro w
  rw [← h w]
  exact sendsOnly_refl w

/-- A check or a look, and what follows it. -/
theorem sendsOnly_bind {β γ : Type} {m : Op (RrmManagement ρ) β} {f : β → Op (RrmManagement ρ) γ}
    (hm : Silent m) (hf : ∀ b, Keeps SendsOnly (f b)) : Keeps SendsOnly (m >>= f) :=
  Keeps.bind sendsOnly_trans (sendsOnly_of_silent hm) hf

theorem sendsOnly_sendMessage (b : UInt64) (msg : FlexranMessage) :
    Keeps SendsOnly (sendMessage b msg : Op (RrmManagement ρ) Unit) := by
  intro w
  refine ⟨rfl, _, rfl, fun e he => ?_⟩
  obtain ⟨x, a, -, rfl⟩ := mem_sendToBs.mp he
  exact ⟨_, _, rfl⟩

theorem sendsOnly_applySliceConfigPolicy (parse : String → Option FlexSliceConfig)
    (bs policy : String) : Keeps SendsOnly (applySliceConfigPolicy parse bs policy :
      Op (RrmManagement ρ) Unit) := by
  refine sendsOnly_bind (silent_requireBs bs) fun bsId => ?_
  refine sendsOnly_bind (silent_requireMessage parse policy) fun sliceConfig => ?_
  refine sendsOnly_bind (silent_ofBs bsId _) fun cell => ?_
  refine sendsOnly_bind (Silent.lift _ _) fun dl => ?_
  refine sendsOnly_bind (Silent.lift _ _) fun ul => ?_
  dsimp only
  split
  · exact sendsOnly_of_silent (Silent.pure _)
  · refine sendsOnly_bind (Silent.throwIf _ _) fun _ => ?_
    refine Keeps.bind sendsOnly_trans (sendsOnly_sendMessage _ _) fun _ => ?_
    refine sendsOnly_bind (silent_ofBs bsId _) fun ues => ?_
    split
    · exact sendsOnly_of_silent (Silent.pure _)
    · exact sendsOnly_sendMessage _ _

theorem sendsOnly_removeSlice (parse : String → Option FlexSliceConfig) (bs policy : String) :
    Keeps SendsOnly (removeSlice parse bs policy : Op (RrmManagement ρ) Unit) := by
  refine sendsOnly_bind (silent_requireBs bs) fun bsId => ?_
  refine sendsOnly_bind (silent_requireMessage parse policy) fun sliceConfig => ?_
  refine sendsOnly_bind (Silent.throwIf _ _) fun _ => ?_
  exact sendsOnly_sendMessage _ _

theorem sendsOnly_autoUeSliceAssociation (engine : RegexEngine ρ) (bs policy : String)
    (dlSliceId ulSliceId : Int32) :
    Keeps SendsOnly (autoUeSliceAssociation engine bs policy dlSliceId ulSliceId) := by
  refine sendsOnly_bind (silent_requireBs bs) fun bsId => ?_
  refine sendsOnly_bind (silent_requireRuleSlice bsId _ _) fun _ => ?_
  refine sendsOnly_bind (silent_requireRuleSlice bsId _ _) fun _ => ?_
  refine sendsOnly_bind (silent_requireImsiReg engine policy) fun regs => ?_
  -- the rules change, which is neither in the RIB nor sent
  refine Keeps.bind sendsOnly_trans (fun w => ⟨rfl, [], by simp, by simp⟩) fun _ => ?_
  split
  · exact sendsOnly_of_silent (Silent.pure _)
  · refine sendsOnly_bind (silent_ofBs bsId _) fun ues => ?_
    split
    · exact sendsOnly_of_silent (Silent.pure _)
    · exact sendsOnly_sendMessage _ _

theorem settle_eq_ok {α β : Type} {m : Op α β} {w w' : World α} (h : settle m w = .ok w') :
    w' = (exec m w).2 := by
  rw [settle] at h
  split at h
  · exact absurd h (by simp)
  · exact absurd h (by simp)
  · rename_i hexec
    rw [hexec]
    exact (Except.ok.inj h).symm

theorem sendsOnly_of_settle {β : Type} {m : Op (RrmManagement ρ) β} (hm : Keeps SendsOnly m)
    {w w' : World (RrmManagement ρ)} (h : settle m w = .ok w') : SendsOnly w w' := by
  rw [settle_eq_ok h]
  exact hm w

theorem sendsOnly_rrmStep {engine : RegexEngine ρ} {parse : String → Option FlexSliceConfig}
    {w w' : World (RrmManagement ρ)} {e : RrmEvent} (he : ∀ m, e ≠ .message m)
    (h : rrmStep engine parse w e = .ok w') : SendsOnly w w' := by
  cases e with
  | message m => exact absurd rfl (he m)
  | applySlices bs policy =>
    exact sendsOnly_of_settle (sendsOnly_applySliceConfigPolicy parse bs policy) h
  | removeSlices bs policy => exact sendsOnly_of_settle (sendsOnly_removeSlice parse bs policy) h
  | associate bs policy dlSliceId ulSliceId =>
    exact sendsOnly_of_settle
      (sendsOnly_autoUeSliceAssociation engine bs policy dlSliceId ulSliceId) h

/-- Requests are safe, as they update no UE. -/
theorem SendsOnly.safeTrace {w w' : World (RrmManagement ρ)} (h : SendsOnly w w')
    {sent : List Effect} (hsent : w'.effects = w.effects ++ sent) (r : Rib) : SafeTrace r sent := by
  obtain ⟨-, sent', heffects, hmsg⟩ := h
  obtain rfl := List.append_cancel_left (heffects.symm.trans hsent)
  intro b rnti hmem
  obtain ⟨id, msg, heq⟩ := hmsg _ hmem
  exact absurd heq (by simp)

end Request

/-! ## Messages -/

/-- Neither the update of a UE nor a UE configuration. -/
def Plain : Effect → Prop
  | .ueUpdate _ _ => False
  | .sendMsg _ msg => ∀ reply, msg.msg ≠ .ueConfigReply reply
  | _ => True

section Message

variable {engine : RegexEngine ρ} {parse : String → Option FlexSliceConfig}
  {w : World (RrmManagement ρ)} {r r' : Rib} {m : Received} {raised : List Effect}

theorem plain_triggerBsConfig (r : Rib) (b : UInt64) : ∀ e ∈ triggerBsConfig r b, Plain e := by
  have hsend : ∀ msg, (∀ reply, msg.msg ≠ .ueConfigReply reply) →
      ∀ e ∈ sendToBs r b msg, Plain e := by
    intro msg hmsg e he
    obtain ⟨x, a, -, rfl⟩ := mem_sendToBs.mp he
    exact hmsg
  intro e he
  rw [triggerBsConfig, List.mem_append, List.mem_append] at he
  rcases he with (he | he) | he
  · exact hsend _ (by simp) e he
  · exact hsend _ (by simp) e he
  · exact hsend _ (by simp) e he

theorem plain_of_outcome {e : RibEvent} (h : Outcome r e r' raised) : ∀ f ∈ raised, Plain f := by
  cases h with
  | formed x _ _ _ =>
    intro f hf
    rcases List.mem_append.mp hf with hf | hf
    · exact plain_triggerBsConfig _ _ f hf
    · obtain rfl := List.mem_singleton.mp hf
      trivial
  | _ => simp [Plain]

theorem raised_of_map {x : Except Fault Rib}
    (h : (·, ([] : List Effect)) <$> x = .ok (r', raised)) : raised = [] := by
  cases x with
  | error f => exact absurd h (by simp [Functor.map, Except.map])
  | ok r'' => exact (Prod.mk.inj (Except.ok.inj h)).2.symm

/-- A message updates one UE and raises nothing else, or it updates none and sends no UE
configuration. -/
theorem updates_or_plain (hinv : Rib.Inv r) {agentId : ℤ} {msg : FlexranMessage}
    {endpoint : String} {want : ℕ}
    (hd : dispatchMessage r agentId msg endpoint want = .ok (r', raised)) :
    (∃ b rnti, raised = [.ueUpdate b rnti]) ∨ ∀ e ∈ raised, Plain e := by
  rcases dispatchMessage_cases hinv hd with ⟨e, -, ho⟩ | ⟨hkind, -, -⟩
  · exact .inr (plain_of_outcome ho)
  obtain ⟨dir, body⟩ := msg
  cases body with
  | hello m => exact absurd hkind (by simp [ribEvent?])
  | disconnect header => exact absurd hkind (by simp [ribEvent?])
  | ueStateChange m =>
    obtain ⟨r'', -, hd⟩ := bind_eq_ok_iff.mp hd
    split at hd
    · obtain ⟨-, rfl⟩ := Prod.mk.inj (Except.ok.inj hd)
      exact .inr (by simp)
    · obtain ⟨-, rfl⟩ := Prod.mk.inj (Except.ok.inj hd)
      split_ifs
      · refine .inr fun e he => ?_
        rcases List.mem_cons.mp he with rfl | he
        · trivial
        · exact plain_triggerBsConfig _ _ e he
      · exact .inl ⟨_, _, rfl⟩
      · exact .inr (by simp [Plain])
      · exact .inr (by simp)
  | statsReply m =>
    obtain ⟨r'', -, hd⟩ := bind_eq_ok_iff.mp hd
    obtain ⟨-, rfl⟩ := Prod.mk.inj (Except.ok.inj hd)
    refine .inr ?_
    split <;> simp [Plain]
  | controlDelReq m =>
    obtain ⟨-, rfl⟩ := Prod.mk.inj (Except.ok.inj hd)
    rw [handleControlDelegationRequest]
    refine .inr ?_
    split <;> simp [Plain]
  | echoRequest header =>
    obtain ⟨-, rfl⟩ := Prod.mk.inj (Except.ok.inj hd)
    exact .inr (by simp [handleEchoRequest, Plain])
  | sfTrigger m => exact .inr (by simp [raised_of_map hd])
  | enbConfigReply m => exact .inr (by simp [raised_of_map hd])
  | ueConfigReply m => exact .inr (by simp [raised_of_map hd])
  | lcConfigReply m => exact .inr (by simp [raised_of_map hd])
  | _ =>
    obtain ⟨-, rfl⟩ := Prod.mk.inj (Except.ok.inj hd)
    exact .inr (by simp)

/-- What the update of a UE is answered with. -/
def answer (engine : RegexEngine ρ) (r : Rib) (s : RrmManagement ρ) : Effect → List Effect
  | .ueUpdate b rnti => moves engine r s b rnti
  | _ => []

/-- The events of a message, each with its answer. -/
def answered (engine : RegexEngine ρ) (r : Rib) (s : RrmManagement ρ) (raised : List Effect) :
    List Effect :=
  raised.flatMap fun e => e :: answer engine r s e

theorem exec_subscribers (engine : RegexEngine ρ) (e : Effect) (w : World (RrmManagement ρ)) :
    exec (subscribers engine e) w =
      (.ok (), { w with effects := w.effects ++ answer engine w.rib w.app e }) := by
  cases e with
  | ueUpdate b rnti => exact exec_ueAddUpdateSliceAssoc engine b rnti w
  | _ => simp [subscribers, answer]

theorem exec_forM_raise (engine : RegexEngine ρ) (raised : List Effect)
    (w : World (RrmManagement ρ)) : exec (forM raised (raise (subscribers engine))) w =
      (.ok (), { w with effects := w.effects ++ answered engine w.rib w.app raised }) := by
  induction raised generalizing w with
  | nil => simp [answered]
  | cons e raised ih =>
    have hraise : exec (raise (subscribers engine) e) w =
        (.ok (), { w with effects := w.effects ++ e :: answer engine w.rib w.app e }) := by
      rw [raise, exec_bind_of_ok (exec_modify _ _), exec_subscribers]
      simp
    rw [exec_forM_cons hraise, ih]
    simp [answered]

theorem rrmStep_message (hd : dispatchMessage w.rib m.agentId m.msg m.endpoint m.want =
    .ok (r', raised)) : rrmStep engine parse w (.message m) = .ok
      { rib := r', app := w.app
        effects := w.effects ++ answered engine r' w.app raised } := by
  apply settle_of_ok
  rw [exec_handle hd, exec_forM_raise]

theorem rrmStep_message_error {f : Fault}
    (hd : dispatchMessage w.rib m.agentId m.msg m.endpoint m.want = .error f) :
    rrmStep engine parse w (.message m) = .error f := by
  rw [rrmStep, settle, handle, exec_bind_of_ok (exec_get w), hd]
  rfl

theorem ueUpdate_notMem_moves (engine : RegexEngine ρ) (r : Rib) (s : RrmManagement ρ)
    (b : UInt64) (rnti : UInt32) (b' : UInt64) (rnti' : UInt32) :
    .ueUpdate b' rnti' ∉ moves engine r s b rnti := by
  rw [moves]
  cases (ueOf r b rnti).bind (moveEntry engine s rnti) with
  | none => simp
  | some c => simp [mem_sendToBs]

/-- The command for a UE names slices of its base station exactly if the rules that decide are for
such slices. -/
theorem safeTrace_update_iff (hinv : Rib.Inv r) (engine : RegexEngine ρ) (s : RrmManagement ρ)
    (b : UInt64) (rnti : UInt32) :
    SafeTrace r (answered engine r s [.ueUpdate b rnti]) ↔
      ∀ ue, ueOf r b rnti = some ue → Covered engine s r b ue := by
  have hmem : ∀ e, e ∈ answered engine r s [.ueUpdate b rnti] ↔
      e = .ueUpdate b rnti ∨ e ∈ moves engine r s b rnti := by
    simp [answered, answer]
  simp only [SafeTrace, hmem]
  constructor
  · intro h ue hue d id hid pre p post hrules hasks hpost
    cases hc : moveEntry engine s rnti ue with
    | none => exact absurd hasks (not_asks_of_no_imsi (Option.map_eq_none_iff.mp hc) id p)
    | some c =>
      obtain ⟨x, a, ha⟩ := exists_memberOf_of_ueOf (w := ⟨r, s, []⟩) hinv hue
      refine h b rnti (.inl rfl) a.agentId (commandMessage [c]) _ (.inr ?_) rfl c
        (List.mem_singleton.mpr rfl) d p.2 ?_
      · exact sendMsg_mem_moves_iff.mpr ⟨ue, c, hue, hc, rfl, x, a, ha, rfl⟩
      · exact (sliceId_moveEntry_eq_some_iff hc).mpr
          ⟨id, hid, pre, p, post, hrules, ⟨hasks, rfl⟩, hpost⟩
  · intro h b' rnti' hupdate id msg reply hsend hreply c hc d slice hslice
    obtain ⟨rfl, -⟩ :=
      Effect.ueUpdate.inj (hupdate.resolve_right (ueUpdate_notMem_moves engine r s b rnti b' rnti'))
    obtain ⟨ue, c', hue, hentry, rfl, -⟩ :=
      sendMsg_mem_moves_iff.mp (hsend.resolve_left (by simp))
    obtain rfl := FlexranBody.ueConfigReply.inj hreply
    obtain rfl := List.mem_singleton.mp hc
    obtain ⟨id', hid, pre, p, post, hrules, ⟨hasks, rfl⟩, hpost⟩ :=
      (sliceId_moveEntry_eq_some_iff hentry).mp hslice
    exact h ue hue d id' hid pre p post hrules hasks hpost

theorem safeTrace_of_plain (h : ∀ e ∈ raised, Plain e) (engine : RegexEngine ρ)
    (s : RrmManagement ρ) (r r' : Rib) : SafeTrace r' (answered engine r s raised) := by
  intro b rnti hmem
  obtain ⟨e, he, hmem⟩ := List.mem_flatMap.mp hmem
  cases e with
  | ueUpdate b' rnti' => exact (h _ he).elim
  | _ => exact absurd hmem (by simp [answer])

theorem safeStep_message_iff (hd : dispatchMessage w.rib m.agentId m.msg m.endpoint m.want =
    .ok (r', raised)) : SafeStep engine parse w (.message m) ↔
      SafeTrace r' (answered engine r' w.app raised) := by
  have hstep : rrmStep engine parse w (.message m) = .ok _ := rrmStep_message hd
  constructor
  · intro h
    have hsafe := h _ _ hstep rfl
    exact hsafe
  · intro h w' sent hstep' hsent
    obtain rfl := Except.ok.inj (hstep.symm.trans hstep')
    rw [← List.append_cancel_left hsent]
    exact h

/-- A step is safe exactly if the UEs it updates are covered. -/
theorem safeStep_iff (hinv : Rib.Inv w.rib) (e : RrmEvent) :
    SafeStep engine parse w e ↔ CoveredStep engine w e := by
  cases e with
  | message m =>
    cases hd : dispatchMessage w.rib m.agentId m.msg m.endpoint m.want with
    | error f =>
      refine iff_of_true (fun w' sent hstep _ => ?_) fun r' raised hd' => ?_
      · exact absurd ((rrmStep_message_error hd).symm.trans hstep) (by simp)
      · exact absurd (hd.symm.trans hd') (by simp)
    | ok result =>
      obtain ⟨r', raised⟩ := result
      rw [safeStep_message_iff hd]
      rcases updates_or_plain hinv hd with ⟨b, rnti, rfl⟩ | hplain
      · rw [safeTrace_update_iff (hinv.dispatchMessage hd)]
        constructor
        · intro h r'' raised hd' b' rnti' hmem ue hue
          obtain ⟨rfl, rfl⟩ := Prod.mk.inj (Except.ok.inj (hd.symm.trans hd'))
          obtain ⟨rfl, rfl⟩ := Effect.ueUpdate.inj (List.mem_singleton.mp hmem)
          exact h ue hue
        · intro h ue hue
          exact h r' _ hd b rnti (List.mem_singleton.mpr rfl) ue hue
      · refine iff_of_true (safeTrace_of_plain hplain engine w.app r' r') ?_
        intro r'' raised' hd' b rnti hmem
        obtain ⟨rfl, rfl⟩ := Prod.mk.inj (Except.ok.inj (hd.symm.trans hd'))
        exact (hplain _ hmem).elim
  | _ =>
    refine iff_of_true (fun w' sent hstep hsent => ?_) trivial
    exact (sendsOnly_rrmStep (by simp) hstep).safeTrace hsent w'.rib

theorem inv_rrmStep (hinv : Rib.Inv w.rib) {w' : World (RrmManagement ρ)} {e : RrmEvent}
    (h : rrmStep engine parse w e = .ok w') : Rib.Inv w'.rib := by
  cases e with
  | message m =>
    cases hd : dispatchMessage w.rib m.agentId m.msg m.endpoint m.want with
    | error f => exact absurd ((rrmStep_message_error hd).symm.trans h) (by simp)
    | ok result =>
      obtain rfl := Except.ok.inj ((rrmStep_message hd).symm.trans h)
      exact hinv.dispatchMessage hd
  | _ =>
    rw [(sendsOnly_rrmStep (by simp) h).1]
    exact hinv

end Message

/-- In exactly the histories in which all updated UEs are covered, no command names a slice that
its base station does not have. -/
theorem eachStep_safe_iff (engine : RegexEngine ρ) (parse : String → Option FlexSliceConfig)
    (events : List RrmEvent) :
    EachStep (rrmStep engine parse) { app := {} } (SafeStep engine parse) events ↔
      EachStep (rrmStep engine parse) { app := {} } (CoveredStep engine) events :=
  eachStep_congr (I := fun w => Rib.Inv w.rib) inv_empty (fun _ _ _ hinv h => inv_rrmStep hinv h)
    (fun _ e hinv => safeStep_iff hinv e) events

theorem raised_ueUpdated {r r' : Rib} {agentId : ℤ} {bs : EnbRibInfo} {c : FlexUeConfig}
    {endpoint : String} {want : ℕ} {raised : List Effect} (hbs : r.getBsFromAgent agentId = some bs)
    (hd : dispatchMessage r agentId ⟨none, .ueStateChange
      { type := some EnbRibInfo.fluescUpdated, config := some c }⟩ endpoint want =
        .ok (r', raised)) : raised = [.ueUpdate bs.bsId (EnbRibInfo.rntiOf c)] := by
  obtain ⟨r'', -, hd⟩ := bind_eq_ok_iff.mp hd
  rw [hbs] at hd
  exact (Prod.mk.inj (Except.ok.inj hd)).2.symm

/-- A rule is set for slice 1, which base station 1 has in the downlink.  A UE of base station 2
matches it. -/
def ruleOfOther : List RrmEvent :=
  [.message
      { agentId := 0, msg := ⟨some .successfulOutcome, .hello { bsId := some 1 }⟩ },
    .message
      { agentId := 0
        msg := ⟨none, .enbConfigReply { cellConfig := [{ sliceConfig := some oneSliceEach }] }⟩ },
    .message
      { agentId := 1, msg := ⟨some .successfulOutcome, .hello { bsId := some 2 }⟩ },
    .message
      { agentId := 1
        msg := ⟨none, .enbConfigReply
          { cellConfig :=
              [{ sliceConfig := some { dl := some { slices := [{ id := some 0 }] } } }] }⟩ },
    .message
      { agentId := 1
        msg := ⟨none, .ueStateChange
          { type := some EnbRibInfo.fluescActivated
            config := some
              { rnti := some 7, imsi := some 208950000000031, dlSliceId := some 0 } }⟩ },
    .associate "1" "[20895]" 1 (-1)]

/-- The agent of base station 2 reports an update of the UE. -/
def updateOfOther : Received where
  agentId := 1
  msg := ⟨none, .ueStateChange
    { type := some EnbRibInfo.fluescUpdated, config := some { rnti := some 7 } }⟩

/-- The UE is told to move to slice 1, which its base station does not have. -/
theorem not_eachStep_safe_ruleOfOther :
    ¬ EachStep (rrmStep plainRegex fun _ => none) { app := {} }
      (SafeStep plainRegex fun _ => none) (ruleOfOther ++ [RrmEvent.message updateOfOther]) := by
  intro h
  have hfacts : (run (rrmStep plainRegex fun _ => none) { app := {} } ruleOfOther).map (fun w =>
      decide ((w.rib.getBsFromAgent 1).map EnbRibInfo.bsId = some 2 ∧
        w.app.dlUeSlice = [("20895", 1)] ∧
        (dispatchMessage w.rib 1 updateOfOther.msg "" 0).map (fun result => decide (
          (ueOf result.1 2 7).map (fun ue => (ue.imsi, ue.dlSliceId)) =
            some (some 208950000000031, some 0) ∧
          ¬ hasId (current result.1 2 .dl).slices 1)) = .ok true)) = .ok true := by
    decide +kernel
  obtain ⟨w, hrun, hbs, hrules, hresult⟩ := exists_ok_of_decide hfacts
  obtain ⟨bs, hbs, hid⟩ := Option.map_eq_some_iff.mp hbs
  obtain ⟨⟨r', raised⟩, hd, hue, hmissing⟩ := exists_ok_of_decide hresult
  obtain ⟨ue, hue, hfields⟩ := Option.map_eq_some_iff.mp hue
  obtain ⟨himsi, hdl⟩ := Prod.mk.inj hfields
  have hinv : Rib.Inv w.rib :=
    run_invariant (I := fun w => Rib.Inv w.rib) (fun _ _ _ hinv h => inv_rrmStep hinv h) inv_empty
      hrun
  have hcovered := (safeStep_iff hinv _).mp (h ruleOfOther _ w (List.prefix_refl _) hrun)
  refine hmissing (hcovered r' raised hd 2 7 ?_ ue hue .dl 0 hdl [] ("20895", 1) [] ?_ ?_ ?_)
  · rw [raised_ueUpdated hbs hd, hid]
    exact List.mem_singleton.mpr rfl
  · exact hrules
  · refine ⟨?_, by decide⟩
    rw [matchesUe, himsi]
    decide
  · simp

end FlexRan.App.Rrm
