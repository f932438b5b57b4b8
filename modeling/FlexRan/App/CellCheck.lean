import FlexRan.App.RrcTriggering
import FlexRan.Rib.Isolation

/-!
# The check for distinct physical cell ids

Each base station waits for the check from the event that it was added to the first tick after its
configuration has been received.  The check is subscribed to the task tick while there is a base
station that waits.

A base station that is removed while it waits is not taken out of the set.

## Main definitions

* `rrcStep`: one message of an agent or one tick.
* `Tracked`: the application knows exactly the base stations there are.
* `always_tracked_iff`: the runs in which it always does.
-/
namespace FlexRan.App.Rrc

open Lib Lib.Operation Protocol Rib

/-! ## Runs -/

/-- The application on an effect: it has subscribed to base stations that come and go. -/
def notify (s : RrcTriggering) : Effect → RrcTriggering
  | .bsAdd bsId => s.bsAdded bsId
  | .bsRemove bsId => s.bsRemoved bsId
  | _ => s

def subscribers (e : Effect) : Op RrcTriggering Unit :=
  modify fun w => { w with app := notify w.app e }

/-- A slot is called at its start and every 10 ticks. -/
def callTick (t : ℕ) (_ start : ℕ) (w : World RrcTriggering) :
    Except Fault (World RrcTriggering) :=
  if t ≥ start ∧ (t - start) % 10 = 0 then
    .ok { w with app := w.app.checkPhyCellId w.rib }
  else .ok w

inductive RrcEvent
  | message (agentId : ℤ) (msg : FlexranMessage) (endpoint : String) (want : ℕ)
  | tick (t : ℕ)

def rrcStep (w : World RrcTriggering) : RrcEvent → Except Fault (World RrcTriggering)
  | .message agentId msg endpoint want =>
    settle (handle subscribers fun r => dispatchMessage r agentId msg endpoint want) w
  | .tick t => do
    let w ← emit (fun w => w.app.taskTick) (callTick t) w
    return { w with app := { w.app with lastTick := t } }

/-! ## The property -/

/-- The pairs that a check would compare. -/
def RrcTriggering.comparisons (r : Rib) (s : RrcTriggering) : List (UInt64 × UInt64) :=
  (checkLoop r s.setCheckPhyCellId s.mapPhyCellId).2.2

/-- Every base station either waits for the check or has been checked, no other one does, the
check is subscribed while one waits, and it compares different base stations that exist. -/
structure Tracked (w : World RrcTriggering) : Prop where
  live : ∀ b ∈ w.rib.eNBConfigs,
    Xor (b ∈ w.app.setCheckPhyCellId) (b ∈ w.app.mapPhyCellId)
  removed : ∀ b, b ∉ w.rib.eNBConfigs →
    b ∉ w.app.setCheckPhyCellId ∧ b ∉ w.app.mapPhyCellId
  ticking : w.app.tickConnected = true ↔ w.app.setCheckPhyCellId ≠ []
  compared : ∀ p ∈ w.app.comparisons w.rib,
    p.1 ∈ w.rib.eNBConfigs ∧ p.2 ∈ w.rib.eNBConfigs ∧ p.1 ≠ p.2

structure Inv (w : World RrcTriggering) : Prop where
  rib : Rib.Inv w.rib
  named : BsNamed w.rib
  known : ∀ b, b ∈ w.rib.eNBConfigs ↔ b ∈ w.app.setCheckPhyCellId ∨ b ∈ w.app.mapPhyCellId
  disjoint : ∀ b ∈ w.app.setCheckPhyCellId, b ∉ w.app.mapPhyCellId
  nodup : w.app.setCheckPhyCellId.Nodup
  owned : Owned (fun _ => ()) w.app.taskTick fun _ => w.app.tickCheckPhyCellId
  ticking : w.app.tickConnected = true ↔ w.app.setCheckPhyCellId ≠ []

/-- No base station that waits for the check is removed. -/
def Harmless (w : World RrcTriggering) : RrcEvent → Prop
  | .message agentId msg _ _ =>
    ∀ b, Removes w.rib agentId msg b → b ∉ w.app.setCheckPhyCellId
  | .tick _ => True

/-- The controller at its start. -/
def initial : World RrcTriggering := { app := {} }

/-! ## The loop over the base stations that wait -/

section Loop

open RrcTriggering

variable (r : Rib)

theorem checkLoop_left (l : List UInt64) (m : Std.ExtTreeMap UInt64 ℤ) :
    (checkLoop r l m).1 = l.filter fun b => (phyCellId? r b).isNone := by
  induction l generalizing m with
  | nil => rfl
  | cons b l ih =>
    rw [checkLoop]
    cases hpc : phyCellId? r b with
    | some pcId => simpa [hpc] using ih _
    | none => simpa [hpc] using ih _

theorem mem_checkLoop_checked (l : List UInt64) (m : Std.ExtTreeMap UInt64 ℤ) (c : UInt64) :
    c ∈ (checkLoop r l m).2.1 ↔ c ∈ m ∨ c ∈ l ∧ (phyCellId? r c).isSome := by
  induction l generalizing m with
  | nil => simp [checkLoop]
  | cons b l ih =>
    rw [checkLoop]
    cases hpc : phyCellId? r b with
    | some pcId =>
      dsimp only
      rw [ih, Std.ExtTreeMap.mem_insertIfNew, Std.LawfulEqCmp.compare_eq_iff_eq, List.mem_cons]
      constructor
      · rintro ((rfl | hc) | hc)
        · exact .inr ⟨.inl rfl, by rw [hpc]; rfl⟩
        · exact .inl hc
        · exact .inr ⟨.inr hc.1, hc.2⟩
      · rintro (hc | ⟨rfl | hc, hsome⟩)
        · exact .inl (.inr hc)
        · exact .inl (.inl rfl)
        · exact .inr ⟨hc, hsome⟩
    | none =>
      dsimp only
      rw [ih, List.mem_cons]
      refine or_congr_right ⟨fun hc => ⟨.inr hc.1, hc.2⟩, ?_⟩
      rintro ⟨rfl | hc, hsome⟩
      · simp [hpc] at hsome
      · exact ⟨hc, hsome⟩

/-- A base station is compared with others that wait or have been checked. -/
theorem of_mem_compared {l : List UInt64} {m : Std.ExtTreeMap UInt64 ℤ} (hnodup : l.Nodup)
    (hdisjoint : ∀ b ∈ l, b ∉ m) {p : UInt64 × UInt64} (hp : p ∈ (checkLoop r l m).2.2) :
    p.1 ∈ l ∧ (p.2 ∈ m ∨ p.2 ∈ l) ∧ p.1 ≠ p.2 := by
  induction l generalizing m with
  | nil => simp [checkLoop] at hp
  | cons b l ih =>
    obtain ⟨hb, hnodup⟩ := List.nodup_cons.mp hnodup
    rw [checkLoop] at hp
    cases hpc : phyCellId? r b with
    | some pcId =>
      rw [hpc] at hp
      rcases List.mem_append.mp hp with hp | hp
      · obtain ⟨c, hc, rfl⟩ := List.mem_map.mp hp
        have hmem : c ∈ m := Std.ExtTreeMap.mem_keys.mp hc
        have hne : b ≠ c := fun heq => hdisjoint b (by simp) (heq ▸ hmem)
        exact ⟨by simp, .inl hmem, hne⟩
      · have hdisjoint' : ∀ c ∈ l, c ∉ m.insertIfNew b pcId := by
          intro c hc hmem
          rw [Std.ExtTreeMap.mem_insertIfNew, Std.LawfulEqCmp.compare_eq_iff_eq] at hmem
          rcases hmem with rfl | hmem
          · exact hb hc
          · exact hdisjoint c (List.mem_cons_of_mem _ hc) hmem
        obtain ⟨h₁, h₂, hne⟩ := ih hnodup hdisjoint' hp
        refine ⟨List.mem_cons_of_mem _ h₁, ?_, hne⟩
        rw [Std.ExtTreeMap.mem_insertIfNew, Std.LawfulEqCmp.compare_eq_iff_eq] at h₂
        rcases h₂ with (rfl | h₂) | h₂
        · exact .inr (by simp)
        · exact .inl h₂
        · exact .inr (List.mem_cons_of_mem _ h₂)
    | none =>
      rw [hpc] at hp
      obtain ⟨h₁, h₂, hne⟩ :=
        ih hnodup (fun c hc => hdisjoint c (List.mem_cons_of_mem _ hc)) hp
      exact ⟨List.mem_cons_of_mem _ h₁, h₂.imp_right (List.mem_cons_of_mem _), hne⟩

end Loop

/-! ## Steps -/

variable {w w' : World RrcTriggering}

theorem exec_forM_subscribers (effects : List Effect) (w : World RrcTriggering) :
    exec (forM effects (raise subscribers)) w =
      (.ok (), { w with app := effects.foldl notify w.app, effects := w.effects ++ effects }) := by
  induction effects generalizing w with
  | nil => simp
  | cons e effects ih =>
    have he : exec (raise subscribers e) w =
        (.ok (), { w with app := notify w.app e, effects := w.effects ++ [e] }) := rfl
    rw [exec_forM_cons he, ih, List.foldl_cons, List.append_assoc, List.singleton_append]

theorem rrcStep_message {agentId : ℤ} {msg : FlexranMessage} {endpoint : String} {want : ℕ}
    {r : Rib} {effects : List Effect}
    (h : dispatchMessage w.rib agentId msg endpoint want = .ok (r, effects)) :
    rrcStep w (.message agentId msg endpoint want) =
      .ok { rib := r, app := effects.foldl notify w.app, effects := w.effects ++ effects } := by
  apply settle_of_ok (b := ())
  rw [exec_handle h, exec_forM_subscribers]

theorem rrcStep_message_error {agentId : ℤ} {msg : FlexranMessage} {endpoint : String} {want : ℕ}
    {f : Fault} (h : dispatchMessage w.rib agentId msg endpoint want = .error f) :
    rrcStep w (.message agentId msg endpoint want) = .error f := by
  rw [rrcStep, handle, settle, exec_bind_of_ok (exec_get w), h]
  rfl

/-- Effects that are no events of base stations are not noticed. -/
theorem foldl_notify_of_quiet {effects : List Effect} (h : Quiet effects) (s : RrcTriggering) :
    effects.foldl notify s = s := by
  induction effects with
  | nil => rfl
  | cons e effects ih =>
    have he : notify s e = s := by
      cases e with
      | bsAdd b => exact absurd (List.mem_cons_self) (h b).1
      | bsRemove b => exact absurd (List.mem_cons_self) (h b).2
      | _ => rfl
    rw [List.foldl_cons, he]
    exact ih fun b => (h b).imp (mt (List.mem_cons_of_mem e)) (mt (List.mem_cons_of_mem e))

theorem inv_initial : Inv initial where
  rib := inv_empty
  named b bs hbs := absurd hbs (by simp [initial])
  known b := by simp [initial]
  disjoint b hb := absurd hb List.not_mem_nil
  nodup := List.nodup_nil
  owned := Owned.empty _
  ticking := by simp [initial, RrcTriggering.tickConnected]

namespace Inv

theorem tracked (h : Inv w) : Tracked w where
  live b hb := by
    rcases (h.known b).mp hb with hset | hmap
    · exact .inl ⟨hset, h.disjoint b hset⟩
    · exact .inr ⟨hmap, fun hset => h.disjoint b hset hmap⟩
  removed b hb := not_or.mp (mt (h.known b).mpr hb)
  ticking := h.ticking
  compared p hp := by
    obtain ⟨h₁, h₂, hne⟩ := of_mem_compared w.rib h.nodup h.disjoint hp
    exact ⟨(h.known _).mpr (.inl h₁), (h.known _).mpr h₂.symm, hne⟩

/-- Without a base station that waits the check has no slot. -/
theorem connected_iff (h : Inv w) :
    w.app.tickConnected = true ↔ ∃ e ∈ w.app.taskTick.slots, (fun _ => ()) e.2 = () :=
  h.owned.connected_iff ()

/-- The check moves the base stations whose configuration has been received. -/
theorem checkPhyCellId (h : Inv w) : Inv { w with app := w.app.checkPhyCellId w.rib } := by
  have hleft := checkLoop_left w.rib w.app.setCheckPhyCellId w.app.mapPhyCellId
  have hchecked := mem_checkLoop_checked w.rib w.app.setCheckPhyCellId w.app.mapPhyCellId
  rw [RrcTriggering.checkPhyCellId]
  generalize RrcTriggering.checkLoop w.rib w.app.setCheckPhyCellId w.app.mapPhyCellId = result
    at hleft hchecked
  obtain ⟨left, checked, compared⟩ := result
  dsimp only at hleft hchecked ⊢
  have hmem : ∀ b, b ∈ left ↔
      b ∈ w.app.setCheckPhyCellId ∧ (RrcTriggering.phyCellId? w.rib b).isNone := by
    intro b
    rw [hleft, List.mem_filter]
  have hknown : ∀ b, b ∈ w.rib.eNBConfigs ↔ b ∈ left ∨ b ∈ checked := by
    intro b
    rw [h.known, hmem, hchecked]
    cases RrcTriggering.phyCellId? w.rib b with
    | none => simp
    | some pcId => simp [or_comm]
  have hdisjoint : ∀ b ∈ left, b ∉ checked := by
    intro b hb hc
    obtain ⟨hset, hnone⟩ := (hmem b).mp hb
    rcases (hchecked b).mp hc with hmap | ⟨-, hsome⟩
    · exact h.disjoint b hset hmap
    · simp [Option.isNone_iff_eq_none.mp hnone] at hsome
  have hnodup : left.Nodup := hleft ▸ h.nodup.filter _
  cases left with
  | nil =>
    -- the slot is closed
    refine ⟨h.rib, h.named, hknown, hdisjoint, hnodup, h.owned.close (), ?_⟩
    refine (h.owned.close ()).connected_iff () |>.trans ?_
    constructor
    · rintro ⟨e, he, -⟩
      exact absurd rfl (h.owned.mem_close.mp he).2
    · exact fun hne => absurd rfl hne
  | cons b left =>
    refine ⟨h.rib, h.named, hknown, hdisjoint, hnodup, h.owned, ?_⟩
    have hwaits : w.app.setCheckPhyCellId ≠ [] := List.ne_nil_of_mem ((hmem b).mp (by simp)).1
    exact iff_of_true (h.ticking.mpr hwaits) (by simp)

theorem callTick (h : Inv w) {t c start : ℕ} (hcall : callTick t c start w = .ok w') : Inv w' := by
  rw [Rrc.callTick] at hcall
  split at hcall
  · exact Except.ok.inj hcall ▸ h.checkPhyCellId
  · exact Except.ok.inj hcall ▸ h

/-- A new base station waits for the check. -/
theorem bsAdded (h : Inv w) {r : Rib} (hrib : Rib.Inv r) (hnamed : BsNamed r) {b : UInt64}
    (hnew : b ∉ w.rib.eNBConfigs)
    (hkeys : ∀ c, c ∈ r.eNBConfigs ↔ b = c ∨ c ∈ w.rib.eNBConfigs) (effects : List Effect) :
    Inv { rib := r, app := w.app.bsAdded b, effects := effects } := by
  obtain ⟨hset, hmap⟩ := not_or.mp (mt (h.known b).mpr hnew)
  have hknown : ∀ c, c ∈ r.eNBConfigs ↔
      c ∈ w.app.setCheckPhyCellId ++ [b] ∨ c ∈ w.app.mapPhyCellId := by
    intro c
    rw [hkeys, h.known, List.mem_append, List.mem_singleton]
    tauto
  have hdisjoint : ∀ c ∈ w.app.setCheckPhyCellId ++ [b], c ∉ w.app.mapPhyCellId := by
    intro c hc
    rcases List.mem_append.mp hc with hc | hc
    · exact h.disjoint c hc
    · exact List.mem_singleton.mp hc ▸ hmap
  have hnodup : (w.app.setCheckPhyCellId ++ [b]).Nodup :=
    h.nodup.append (List.nodup_singleton b) (List.disjoint_singleton.mpr hset)
  rw [RrcTriggering.bsAdded, if_neg hset]
  dsimp only
  split
  next hconnected =>
    exact ⟨hrib, hnamed, hknown, hdisjoint, hnodup, h.owned,
      iff_of_true hconnected (by simp)⟩
  next hnot =>
    have hempty : ∀ e ∈ w.app.taskTick.slots, (fun _ => ()) e.2 ≠ () := by
      intro e he hname
      exact hnot (h.connected_iff.mpr ⟨e, he, hname⟩)
    have howned : Owned (fun _ => ()) (w.app.taskTick.connect w.app.lastTick)
        fun _ => some w.app.taskTick.next := by
      have hupdate := h.owned.connect hempty (k := w.app.lastTick)
      rwa [show Function.update (fun _ => w.app.tickCheckPhyCellId) () (some w.app.taskTick.next) =
        fun _ => some w.app.taskTick.next from funext fun _ => Function.update_self ..] at hupdate
    refine ⟨hrib, hnamed, hknown, hdisjoint, hnodup, howned, iff_of_true ?_ (by simp)⟩
    exact (howned.connected_iff ()).mpr ⟨_, Owned.mem_connect.mpr (.inr rfl), rfl⟩

/-- A base station that has been checked is forgotten. -/
theorem bsRemoved (h : Inv w) {r : Rib} (hrib : Rib.Inv r) (hnamed : BsNamed r) {b : UInt64}
    (hset : b ∉ w.app.setCheckPhyCellId)
    (hkeys : ∀ c, c ∈ r.eNBConfigs ↔ b ≠ c ∧ c ∈ w.rib.eNBConfigs) (effects : List Effect) :
    Inv { rib := r, app := w.app.bsRemoved b, effects := effects } where
  rib := hrib
  named := hnamed
  known c := by
    have hmem : c ∈ (w.app.bsRemoved b).mapPhyCellId ↔ b ≠ c ∧ c ∈ w.app.mapPhyCellId := by
      rw [RrcTriggering.bsRemoved, Std.ExtTreeMap.mem_erase, ne_eq,
        Std.LawfulEqCmp.compare_eq_iff_eq]
    rw [hkeys, h.known, hmem]
    constructor
    · rintro ⟨hne, hc | hc⟩
      · exact .inl hc
      · exact .inr ⟨hne, hc⟩
    · rintro (hc | ⟨hne, hc⟩)
      · exact ⟨fun heq => hset (heq ▸ hc), .inl hc⟩
      · exact ⟨hne, .inr hc⟩
  disjoint c hc hmem := h.disjoint c hc (Std.ExtTreeMap.mem_of_mem_erase hmem)
  nodup := h.nodup
  owned := h.owned
  ticking := h.ticking

/-- A message that removes no base station that waits keeps the invariant. -/
theorem message (h : Inv w) {agentId : ℤ} {msg : FlexranMessage} {endpoint : String} {want : ℕ}
    (hharmless : Harmless w (.message agentId msg endpoint want))
    (hstep : rrcStep w (.message agentId msg endpoint want) = .ok w') : Inv w' := by
  cases hd : dispatchMessage w.rib agentId msg endpoint want with
  | error f => exact absurd (hstep.symm.trans (rrcStep_message_error hd)) (by simp)
  | ok p =>
    obtain ⟨r, effects⟩ := p
    rw [rrcStep_message hd] at hstep
    obtain rfl := Except.ok.inj hstep
    have hrib := h.rib.dispatchMessage hd
    have hnamed := bsNamed_dispatchMessage h.rib h.named hd
    cases dispatchMessage_bsChange h.rib h.named hd with
    | kept hkeys hquiet hnot =>
      rw [foldl_notify_of_quiet hquiet]
      exact ⟨hrib, hnamed, fun b => (hkeys b).trans (h.known b), h.disjoint, h.nodup, h.owned,
        h.ticking⟩
    | added b sent hnew hkeys heffects hquiet hnot =>
      subst heffects
      rw [List.foldl_append, foldl_notify_of_quiet hquiet]
      exact h.bsAdded hrib hnamed hnew hkeys _
    | removed b hold hkeys heffects hremoves =>
      subst heffects
      exact h.bsRemoved hrib hnamed (hharmless b hremoves) hkeys _

theorem step (h : Inv w) {e : RrcEvent} (hharmless : Harmless w e)
    (hstep : rrcStep w e = .ok w') : Inv w' := by
  cases e with
  | message agentId msg endpoint want => exact h.message hharmless hstep
  | tick t =>
    obtain ⟨u, hu, hstep⟩ := bind_eq_ok_iff.mp hstep
    have hInv : Inv u := emit_invariant (fun _ _ _ _ h hcall => h.callTick hcall) h hu
    obtain rfl := Except.ok.inj hstep
    exact ⟨hInv.rib, hInv.named, hInv.known, hInv.disjoint, hInv.nodup, hInv.owned, hInv.ticking⟩

/-- A base station that is removed while it waits goes on waiting. -/
theorem not_tracked (h : Inv w) {e : RrcEvent} (hnot : ¬ Harmless w e) :
    ∃ t, rrcStep w e = .ok t ∧ ¬ Tracked t := by
  cases e with
  | tick t => exact absurd trivial hnot
  | message agentId msg endpoint want =>
    rw [Harmless] at hnot
    push Not at hnot
    obtain ⟨b, hremoves, hwaits⟩ := hnot
    obtain ⟨⟨header, hheader⟩, p, hp, hpb⟩ := hremoves
    obtain ⟨dir, body⟩ := msg
    obtain rfl : body = .disconnect header := hheader
    obtain ⟨r, effects, hd, ho⟩ := handleDisconnect_outcome h.rib agentId
    have hdispatch : dispatchMessage w.rib agentId ⟨dir, .disconnect header⟩ endpoint want =
        .ok (r, effects) := hd
    refine ⟨_, rrcStep_message hdispatch, fun htracked => ?_⟩
    cases dispatchMessage_bsChange h.rib h.named hdispatch with
    | kept hkeys hquiet hnone => exact hnone b ⟨⟨header, rfl⟩, p, hp, hpb⟩
    | added c sent hnew hkeys heffects hquiet hnone => exact hnone b ⟨⟨header, rfl⟩, p, hp, hpb⟩
    | removed c hold hkeys heffects hremoves =>
      obtain ⟨-, q, hq, rfl⟩ := hremoves
      obtain rfl : p = q := Option.some.inj (hp.symm.trans hq)
      subst heffects
      have hgone : b ∉ r.eNBConfigs := fun hb => ((hkeys b).mp hb).1 hpb
      exact (htracked.removed b hgone).1 hwaits

end Inv

/-- In exactly the runs in which no base station is removed while it waits for the check, the
application tracks the base stations in every state. -/
theorem always_tracked_iff (events : List RrcEvent) :
    Always rrcStep initial Tracked events ↔ EachStep rrcStep initial Harmless events :=
  always_iff_eachStep_of_breaks inv_initial (fun _ h => h.tracked)
    (fun _ _ _ h hharmless hstep => h.step hharmless hstep) (fun _ _ h hnot => h.not_tracked hnot)
    events

/-- An agent becomes base station 1 and disconnects before it has sent its configuration. -/
def goneAtOnce : List RrcEvent :=
  [.message 0 ⟨some .successfulOutcome, .hello { bsId := some 1 }⟩ "" 0,
    .message 0 ⟨some .initiatingMessage, .disconnect none⟩ "" 0]

/-- Base station 1 goes on waiting for the check. -/
theorem not_always_tracked_goneAtOnce : ¬ Always rrcStep initial Tracked goneAtOnce := by
  intro h
  have hwaits : (run rrcStep initial goneAtOnce).map (fun w =>
      decide (1 ∈ w.app.setCheckPhyCellId ∧ 1 ∉ w.rib.eNBConfigs)) = .ok true := by decide +kernel
  obtain ⟨w, hrun, hset, hgone⟩ := exists_ok_of_decide hwaits
  have htracked : Tracked w := h goneAtOnce w (List.prefix_refl _) hrun
  exact (htracked.removed 1 hgone).1 hset

end FlexRan.App.Rrc
