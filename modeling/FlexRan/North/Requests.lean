import FlexRan.App.Northbound
import FlexRan.North.Calls

/-!
# Requests

The northbound interface binds a call to each kind of request.  Each call answers its request once,
and a request that is refused has had no effect; only an unknown direction is answered with a
refusal and carried out all the same.  The call of the recorder is the step of its archive, so that
what is said of recordings holds of those that clients ask for.

## Main definitions

* `Controller`: the applications the calls act on.
* `Request`: the requests, with what the router has decoded and what the call finds outside.
* `call`: the call of a request.
* `call_answers`: how requests are answered.
-/
namespace FlexRan.North

open Lib Lib.Operation Protocol App Rib
open Rrc (RrcTriggering)

variable {α β ρ : Type}

/-! ## Requests -/

/-- All applications behind the northbound interface. -/
structure Controller (ρ : Type) extends Applications ρ where
  rrc : RrcTriggering := {}
  recorder : Log.Archive := { files := ⟨fun _ => [], fun _ => true⟩ }

/-- The exchange as one application sees it. -/
def Exchange.focus (view : β → α) (x : Exchange β) : Exchange α :=
  ⟨⟨x.world.rib, view x.world.app, x.world.effects⟩, x.sent⟩

/-- What the application has made of the exchange. -/
def Exchange.refocus (update : α → β → β) (x : Exchange β) (y : Exchange α) : Exchange β :=
  ⟨⟨y.world.rib, update y.world.app x.world.app, y.world.effects⟩, y.sent⟩

/-- A call of one application, whose state is a part of a larger one. -/
def forApp (view : β → α) (update : α → β → β) (c : Call α Unit) : Call β Unit :=
  ExceptT.mk fun x =>
    let (result, y) := exec c (x.focus view)
    (result, x.refocus update y)

/-- What the router has decoded; the time, the finished transfers, whether libcurl has a handle and
whether memory can be reserved are what the call finds. -/
inductive Request
  | applySliceConfig (id : Option String) (body : String)
  | removeSliceConfig (id : Option String) (body : String)
  | changeUeSliceAssoc (id : Option String) (body : String)
  | autoUeSliceAssoc (id : Option String) (sliceId : UInt32) (dir : Option String) (body : String)
  | cellReconfiguration (id : Option String) (body : String)
  | yamlCompat (id : Option String) (body : String)
  | addMme (id : Option String) (body : String)
  | removeMme (id : Option String) (body : String)
  | changePlmn (id : Option String) (body : String)
  | rrcReconf (id : Option String) (body : String)
  | rrcHo (senb ue tenb : String)
  | rrcX2HoNetControl (enb : String) (x2HoNetControl : Bool)
  | obtainStats (type : Option String)
  | obtainJsonStats (now : Int64) (type : Option String)
  | obtainJsonStatsEnb (now : Int64) (id : String) (type : Option String)
  | obtainJsonStatsUe (idEnb : Option String) (idUe : String)
  | getStatsReq (id : Option String)
  | setStatsReq (id : Option String) (body : String)
  | appDlTrigger (canInit : Bool) (id : String)
  | appRmTrigger (id : String)
  | appConfTrigger (id body : String)
  | startMeas (now : Int64) (type : Option String) (duration : Option UInt32) (reserves : Bool)
  /-- The call of the recorder of the same name as the one of the statistics manager. -/
  | recorderObtainJsonStats (id : String)
  | listApi
  | status
  | addEndpoint (ep : String)
  | removeEndpoint (waited : List (Log.Transfer × ℕ)) (ep : String)
  | setFreqStats (freq : ℤ)
  | setFreqConfig (freq : ℤ)
  | setBatchStatsSize (size : ℤ)
  | setBatchConfigSize (size : ℤ)
  | enable (now : Int64)
  | disable (waited : List (Log.Transfer × ℕ))

section Call

variable (lib : Libraries ρ)

/-- The calls that are bound to the requests. -/
def call : Request → Call (Controller ρ) Unit
  | .applySliceConfig id body => onRrm (applySliceConfig lib id body)
  | .removeSliceConfig id body => onRrm (removeSliceConfig lib id body)
  | .changeUeSliceAssoc id body => onRrm (changeUeSliceAssoc lib id body)
  | .autoUeSliceAssoc id sliceId dir body => onRrm (autoUeSliceAssoc lib id sliceId dir body)
  | .cellReconfiguration id body => onRrm (cellReconfiguration lib id body)
  | .yamlCompat id body => onRrm (yamlCompat id body)
  | .addMme id body => onPlmn (addMme lib id body)
  | .removeMme id body => onPlmn (removeMme lib id body)
  | .changePlmn id body => onPlmn (changePlmn lib id body)
  | .rrcReconf id body => onRrc (rrcReconf lib id body)
  | .rrcHo senb ue tenb => onRrc (rrcHo senb ue tenb)
  | .rrcX2HoNetControl enb x2HoNetControl => onRrc (rrcX2HoNetControl enb x2HoNetControl)
  | .obtainStats type => onStats (obtainStats lib type)
  | .obtainJsonStats now type => onStats (obtainJsonStats lib now type)
  | .obtainJsonStatsEnb now id type => onStats (obtainJsonStatsEnb lib now id type)
  | .obtainJsonStatsUe idEnb idUe => onStats (obtainJsonStatsUe lib idEnb idUe)
  | .getStatsReq id => onStats (getStatsReq lib id)
  | .setStatsReq id body => onStats (setStatsReq lib id body)
  | .appDlTrigger canInit id => onNetstore (appDlTrigger canInit id)
  | .appRmTrigger id => onNetstore (appRmTrigger id)
  | .appConfTrigger id body => onNetstore (appConfTrigger lib id body)
  | .startMeas now type duration reserves =>
    onRecorder (RecorderCalls.startMeas now type duration reserves)
  | .recorderObtainJsonStats id => onRecorder (RecorderCalls.obtainJsonStats id)
  | .listApi => listApi lib
  | .status => onElastic (status lib)
  | .addEndpoint ep => onElastic (addEndpoint ep)
  | .removeEndpoint waited ep => onElastic (removeEndpoint waited ep)
  | .setFreqStats freq => onElastic (setFreqStats freq)
  | .setFreqConfig freq => onElastic (setFreqConfig freq)
  | .setBatchStatsSize size => onElastic (setBatchStatsSize size)
  | .setBatchConfigSize size => onElastic (setBatchConfigSize size)
  | .enable now => onElastic (enable now)
  | .disable waited => onElastic (disable waited)
where
  onRrm := forApp (fun a : Controller ρ => a.rrm) fun s a => { a with rrm := s }
  onPlmn := forApp (fun _ : Controller ρ => ()) fun _ a => a
  onRrc := forApp (fun a : Controller ρ => a.rrc) fun s a => { a with rrc := s }
  onStats := forApp (fun a : Controller ρ => a.stats) fun s a => { a with stats := s }
  onNetstore := forApp (fun a : Controller ρ => a.netstore) fun s a => { a with netstore := s }
  onRecorder := forApp (fun a : Controller ρ => a.recorder) fun s a => { a with recorder := s }
  onElastic := forApp (fun a : Controller ρ => a.elastic) fun s a => { a with elastic := s }

end Call

/-- The direction of an association is one of the three there are. -/
def Request.DirectionKnown : Request → Prop
  | .autoUeSliceAssoc _ _ dir _ => dir.getD "both" ∈ ["both", "dl", "ul"]
  | _ => True

/-! ## The patterns answer -/

theorem answers_refuseEmpty (tail : String) : Answers (refuseEmpty tail : Call α Unit) :=
  .send_refusal (by decide) _

/-- An operation that throws before it does anything. -/
theorem answers_tryPolicy {app : Op α Unit} (h : Atomic Rejected app) :
    Answers (tryPolicy app) :=
  .bind_attempt h

/-- The calls that give their text to an operation only refuse what that operation rejects. -/
theorem answers_policyCall {app : String → String → Op α Unit}
    (h : ∀ bs policy, Atomic Rejected (app bs policy)) (id : Option String) (body : String) :
    Answers (policyCall app id body) := by
  rw [policyCall]
  split
  · exact answers_refuseEmpty _
  · exact answers_tryPolicy (h _ _)

/-- An operation that says no has done nothing before. -/
theorem answers_reasonCall {app : Op α (Bool × String)} (h : Atomic Refused app) (tail : String) :
    Answers (reasonCall app tail) :=
  .bind_decided (by decide) fun w ⟨(_, reason), hr, hb⟩ => h w ⟨reason, by
    rw [hr, ← show _ = false from hb]⟩

theorem answers_textCall {app : Op α (Bool × String)} (h : Silent app) :
    Answers (textCall app) :=
  .bind_decided (by decide) (Atomic.of_silent h)

/-- A setting that is refused is left alone. -/
theorem answers_settingCall {change : Log.ElasticSearch → Bool × Log.ElasticSearch}
    (h : ∀ s, (change s).1 = false → (change s).2 = s) (error : String) :
    Answers (settingCall change error) := by
  refine .bind_decided (by decide) fun w ⟨b, hb, hrefused⟩ => ?_
  obtain rfl : (change w.app).1 = b := Except.ok.inj hb
  change { w with app := (change w.app).2 } = w
  rw [h _ hrefused]

theorem answers_answerText (f : Rib → Except Fault String) :
    Answers (answerText f : Call α Unit) :=
  .bind_silent (silent_ofRib _) fun _ => .send_ok _

/-- What one application has answered is answered by all of them. -/
theorem Answered.refocus {view : β → α} {update : α → β → β} (hview : ∀ b, update (view b) b = b)
    {x : Exchange β} {outcome : Except Abort Unit × Exchange α}
    (h : Answered (x.focus view) outcome) :
    Answered x (outcome.1, x.refocus update outcome.2) := by
  cases h with
  | accepted w body => exact .accepted _ body
  | refused hcode body =>
    have hrefused := Answered.refused (x := x) hcode body
    simpa only [Exchange.refocus, Exchange.focus, hview] using hrefused
  | escaped h w => exact .escaped h _
  | undefined h w => exact .undefined h _

/-- Responses may have been sent before. -/
theorem answered_forApp {view : β → α} {update : α → β → β} (hview : ∀ b, update (view b) b = b)
    {c : Call α Unit} {x : Exchange β} {sent : List Response}
    (h : Answered { x.focus view with sent := sent } (exec c (x.focus view))) :
    Answered { x with sent := sent } (exec (forApp view update c) x) :=
  Answered.refocus (x := { x with sent := sent }) hview h

/-- The calls of an application answer as calls of the controller. -/
theorem answers_forApp {view : β → α} {update : α → β → β} (hview : ∀ b, update (view b) b = b)
    {c : Call α Unit} (h : Answers c) : Answers (forApp view update c) :=
  fun x => (h (x.focus view)).refocus hview

/-! ## The requests of the applications answer -/

/-- The message is built after the last check. -/
theorem atomic_rrcReconf (parse : String → Option FlexMeasurementInfo)
    (bs config errorReason : String) :
    Atomic Refused (App.Rrc.rrcReconf parse bs config errorReason) := by
  refine Atomic.bind (silent_ofRib _) fun bsId => ?_
  split
  · exact Atomic.of_silent (Silent.pure _)
  · split
    · exact Atomic.of_silent (Silent.pure _)
    · exact atomic_of_returns (Returns.bind fun _ => Returns.pure rfl)

/-- The command of the handover is sent when the target is known. -/
theorem atomic_handOver (sBsId : UInt64) (rnti : UInt32) (tbs errorReason : String) :
    Atomic Refused (App.Rrc.handOver sBsId rnti tbs errorReason) := by
  refine Atomic.bind (silent_ofRib _) fun tBsId => ?_
  split
  · exact Atomic.of_silent (Silent.pure _)
  · split
    · exact Atomic.of_silent (Silent.pure _)
    · refine Atomic.bind (silent_ofBs tBsId _) fun tCell => ?_
      -- the command has been sent, and nothing refuses it after that
      exact atomic_of_returns
        (Returns.bind fun _ => Returns.bind fun _ => Returns.pure rfl)

/-- The source, its cell and the UE are looked up first. -/
theorem atomic_rrcHo (sbs ue tbs errorReason : String) :
    Atomic Refused (App.Rrc.rrcHo sbs ue tbs errorReason) := by
  refine Atomic.bind (silent_ofRib _) fun sBsId => ?_
  split
  · exact Atomic.of_silent (Silent.pure _)
  · refine Atomic.bind (silent_ofBs sBsId _) fun sCell => ?_
    split
    · exact Atomic.of_silent (Silent.pure _)
    · refine Atomic.bind (silent_ofBs sBsId _) fun found => ?_
      split
      · exact Atomic.of_silent (Silent.pure _)
      · exact atomic_handOver _ _ _ _

theorem atomic_rrcX2HoNetControl (bs : String) (x2HoNetControl : Bool) (errorReason : String) :
    Atomic Refused (App.Rrc.rrcX2HoNetControl bs x2HoNetControl errorReason) := by
  refine Atomic.bind (silent_ofRib _) fun bsId => ?_
  split
  · exact Atomic.of_silent (Silent.pure _)
  · exact atomic_of_returns (Returns.bind fun _ => Returns.pure rfl)

section Answers

variable {lib : Libraries ρ}

theorem silent_idOrLastBs (id : Option String) :
    Silent (idOrLastBs id : Op (Rrm.RrmManagement ρ) UInt64) :=
  silent_ofRib _

/-- The base station is looked up before the text is. -/
theorem answers_cellReconfiguration (id : Option String) (body : String) :
    Answers (cellReconfiguration lib id body) := by
  refine .bind_silent (silent_idOrLastBs id) fun bsId => ?_
  split
  · exact .send_refusal (by decide) _
  · split
    · exact answers_refuseEmpty _
    · exact answers_reasonCall (Rrm.atomic_applyCellConfigPolicy _ _ _ _) _

/-- The text of a YAML policy is never refused by the operation, only if nobody is there to get it.
-/
theorem answers_yamlCompat (id : Option String) (body : String) :
    Answers (yamlCompat id body : Call (Rrm.RrmManagement ρ) Unit) := by
  refine .bind_silent (silent_idOrLastBs id) fun bsId => ?_
  split
  · exact .send_refusal (by decide) _
  · split
    · exact .send_refusal (by decide) _
    · exact .bind_op _ _

/-- With a known direction there is no answer before the one of the operation. -/
theorem answers_autoUeSliceAssoc {id dir : Option String} {sliceId : UInt32} {body : String}
    (hdir : dir.getD "both" ∈ ["both", "dl", "ul"]) :
    Answers (autoUeSliceAssoc lib id sliceId dir body) := by
  obtain ⟨slices, hslices⟩ : ∃ slices : Int32 × Int32,
      (parseDirection sliceId (dir.getD "both") : Call (Rrm.RrmManagement ρ) _) = pure slices := by
    simp only [List.mem_cons, List.not_mem_nil, or_false] at hdir
    rcases hdir with h | h | h <;> rw [h] <;> exact ⟨_, rfl⟩
  rw [autoUeSliceAssoc, hslices, pure_bind]
  dsimp only
  split
  · exact answers_refuseEmpty _
  · exact answers_tryPolicy (Rrm.atomic_autoUeSliceAssociation _ _ _ _ _)

theorem answers_rrcReconf (id : Option String) (body : String) :
    Answers (rrcReconf lib id body) := by
  rw [rrcReconf]
  split
  · exact answers_refuseEmpty _
  · exact answers_reasonCall (atomic_rrcReconf _ _ _ _) _

/-- The texts for people are read from the RIB, too. -/
theorem answers_obtainStats (type : Option String) : Answers (obtainStats lib type) := by
  rw [obtainStats]
  split_ifs
  · exact answers_answerText _
  · exact answers_answerText _
  · exact answers_answerText _
  · exact .send_refusal (by decide) _

theorem answers_obtainJsonStats (now : Int64) (type : Option String) :
    Answers (obtainJsonStats lib now type) := by
  rw [obtainJsonStats]
  split_ifs
  · exact answers_answerText _
  · exact answers_answerText _
  · exact answers_answerText _
  · exact .send_refusal (by decide) _

theorem answers_obtainJsonStatsEnb (now : Int64) (id : String) (type : Option String) :
    Answers (obtainJsonStatsEnb lib now id type) := by
  refine .bind_silent (silent_ofRib _) fun bsId => ?_
  dsimp only
  split_ifs
  · exact .send_refusal (by decide) _
  · exact answers_answerText _
  · exact answers_answerText _
  · exact answers_answerText _
  · exact .send_refusal (by decide) _

theorem answers_answerUe (found : Option (UInt32 × UInt64)) : Answers (answerUe lib found) := by
  cases found with
  | none => exact .send_refusal (by decide) _
  | some ue => exact answers_answerText _

/-- The UE is looked up at the base station that is named, or at all. -/
theorem answers_obtainJsonStatsUe (idEnb : Option String) (idUe : String) :
    Answers (obtainJsonStatsUe lib idEnb idUe) := by
  cases idEnb with
  | none => exact .bind_silent (silent_ofRib _) fun found => answers_answerUe found
  | some id =>
    refine .bind_silent (silent_ofRib _) fun bsId => ?_
    split
    · exact .send_refusal (by decide) _
    · exact .bind_silent (silent_ofRib _) fun found => answers_answerUe _

/-- The stored requests are read only. -/
theorem silent_getStatsRequests (print : FlexCompleteStatsRequestRepeated → Option String)
    (bs : String) : Silent (Stats.getStatsRequests print bs) := by
  refine (silent_ofRib _).bind fun bsId => Silent.bind (Keeps.get fun _ => rfl) fun w => ?_
  split
  · exact Silent.pure _
  · split
    · exact Silent.pure _
    · exact Silent.pure _

theorem answers_setStatsReq (id : Option String) (body : String) :
    Answers (setStatsReq lib id body) := by
  rw [setStatsReq]
  split
  · exact answers_refuseEmpty _
  · exact answers_reasonCall (atomic_setStatsRequests _ _ _ _) _

/-- An exception of the loader leaves it as it was. -/
theorem atomic_ofLoader (f : Rib → NetStore.NetstoreLoader → Except Abort NetStore.NetstoreLoader) :
    Atomic Rejected (ofLoader f) := by
  refine Atomic.bind (Keeps.get fun _ => rfl) fun w => ?_
  refine Atomic.bind (Silent.lift _ _) fun s => ?_
  exact atomic_of_fails fun _ _ h => nomatch h

theorem answers_appDlTrigger (canInit : Bool) (id : String) : Answers (appDlTrigger canInit id) :=
  .bind_op _ _

theorem answers_appRmTrigger (id : String) : Answers (appRmTrigger id) := .bind_op _ _

/-- The text is parsed before anything is sent. -/
theorem answers_appConfTrigger (id body : String) : Answers (appConfTrigger lib id body) :=
  .bind_attempt (atomic_ofLoader _)

/-! ### The recorder -/

section Recorder

open RecorderCalls

variable {w : World Log.Archive} {now : Int64} {duration : UInt32} {type : String}
  {reserves : Bool}

/-- What the recorder makes of a request is what the call leaves, answered or not. -/
theorem exec_requestJob {id : Option String} {s : Log.Recorder}
    (h : Log.startMeas w.rib now (w.app.measRequest duration type reserves) w.app.recorder =
      .ok (id, s)) :
    exec (requestJob now duration type reserves) w =
      (if id = none ∧ (w.app.measRequest duration type reserves).Passes then
        .error (.fault .badAlloc)
      else .ok (id.isSome, id.getD ""),
      { w with app := { w.app with recorder := s, files := w.app.touched duration type } }) := by
  rw [requestJob, exec_bind_of_ok (exec_get w)]
  dsimp only
  rw [h, exec_bind_of_ok (exec_lift_ok _ _ _), exec_bind_of_ok (exec_set _ _)]
  split
  next hescapes => rw [exec_bind_of_error (exec_throwIf_pos hescapes _ _)]
  next hanswers => rw [exec_bind_of_ok (exec_throwIf_neg hanswers _ _), exec_pure]

/-- A job that is not accepted has not been seen by the recorder or the file system. -/
theorem atomic_requestJob (now : Int64) (duration : UInt32) (type : String) (reserves : Bool) :
    Atomic (fun r => ∃ b, r = .ok b ∧ b.1 = false) (requestJob now duration type reserves) := by
  rintro w ⟨b, hb, hfalse⟩
  cases h : Log.startMeas w.rib now (w.app.measRequest duration type reserves) w.app.recorder with
  | error f =>
    rw [requestJob, exec_bind_of_ok (exec_get w)] at hb
    dsimp only at hb
    rw [h] at hb
    exact nomatch hb
  | ok result =>
    obtain ⟨id, s⟩ := result
    rw [exec_requestJob h] at hb ⊢
    dsimp only at hb ⊢
    split at hb
    · exact nomatch hb
    · rename_i hnot
      obtain rfl := Except.ok.inj hb
      obtain rfl : id = none := by simpa using hfalse
      have hpasses : ¬ (w.app.measRequest duration type reserves).Passes := fun hp =>
        hnot ⟨rfl, hp⟩
      rw [Log.eq_of_startMeas_none h hpasses, Log.touched_of_not_passes hpasses]

/-- A request for a recording is the step of the archive. -/
theorem archiveStep_startMeas (f : Log.Formats) (h : Log.BsReachable w.rib) :
    Log.archiveStep f w.app (.startMeas ⟨w.rib, h⟩ now duration type reserves) =
      .ok (exec (requestJob now duration type reserves) w).2.app := by
  obtain ⟨id, s, hstart, hwritten⟩ := Log.startMeas_ok h now
    (w.app.measRequest duration type reserves) w.app.recorder
  rw [exec_requestJob hstart, Log.archiveStep_of_recorderEvent (by rfl), Log.recorderStep, hstart]
  have hnew : s.written.drop w.app.recorder.written.length = [] := by
    rw [hwritten, List.drop_length]
  change Except.ok _ = _
  simp [hnew, Log.Archive.opened]

/-- A recording that is refused is a conflict, and nothing has changed. -/
theorem answers_startMeas (now : Int64) (type : Option String) (duration : Option UInt32)
    (reserves : Bool) : Answers (RecorderCalls.startMeas now type duration reserves) :=
  .bind_decided (by decide) (atomic_requestJob _ _ _ _)

/-- A download is answered with the bytes of the file or with what is missing. -/
theorem answers_recorderObtainJsonStats (id : String) :
    Answers (RecorderCalls.obtainJsonStats id) := by
  have hread : Silent (do return (← get).app.obtainJsonStats id : Op Log.Archive _) :=
    Silent.bind (Keeps.get fun _ => rfl) fun _ => Silent.pure _
  refine .bind_silent hread fun download => ?_
  cases download with
  | refused error => exact .send_refusal (by decide) error
  | content bytes => exact .send_ok _

/-- A job that can be downloaded is sent to every client that asks for it, byte by byte. -/
theorem exec_obtainJsonStats_of_serves {f : Log.Formats} {job : Log.JobInfo}
    {x : Exchange Log.Archive} (h : x.world.app.Serves f job) :
    ∃ bytes, Log.IsRecordingOf f job (Log.recorded x.world.app.recorder.chunks job) bytes ∧
      exec (RecorderCalls.obtainJsonStats (toString job.msStart)) x =
        (.ok (), { x with sent := x.sent ++ [⟨.ok, bytesText bytes⟩] }) := by
  obtain ⟨bytes, hdownload, hrecording⟩ := h
  refine ⟨bytes, hrecording, ?_⟩
  have hread : exec (do return (← get).app.obtainJsonStats (toString job.msStart) : Op _ _)
      x.world = (.ok (.content bytes), x.world) := by
    rw [exec_bind_of_ok (exec_get _), hdownload, exec_pure]
  rw [RecorderCalls.obtainJsonStats, exec_ofApp_bind_ok hread]
  rfl

/-- The bytes can be read off the body that is sent. -/
theorem bytesText_injective : Function.Injective bytesText := by
  intro a b h
  refine List.map_injective_iff.mpr (fun x y hxy => ?_) (String.ofList_injective h)
  exact UInt8.toUInt32_inj.mp (congrArg Char.val hxy)

end Recorder

/-! ### The exporter -/

section Settings

variable (s : Log.ElasticSearch)

/-! A setting that is refused is as before. -/

theorem addEndpoint_refused (ep : String) (h : (s.addEndpoint ep).1 = false) :
    (s.addEndpoint ep).2 = s := by
  rw [Log.ElasticSearch.addEndpoint] at h ⊢
  split_ifs at h ⊢ <;> rfl

theorem removeEndpoint_refused (waited : List (Log.Transfer × ℕ)) (ep : String)
    (h : (s.removeEndpoint waited ep).1 = false) : (s.removeEndpoint waited ep).2 = s := by
  rw [Log.ElasticSearch.removeEndpoint] at h ⊢
  dsimp only at h ⊢
  split_ifs at h ⊢
  rfl

theorem setFreqStats_refused (freq : ℤ) (h : (s.setFreqStats freq).1 = false) :
    (s.setFreqStats freq).2 = s := by
  rw [Log.ElasticSearch.setFreqStats] at h ⊢
  dsimp only at h ⊢
  split_ifs at h ⊢
  rfl

theorem setFreqConfig_refused (freq : ℤ) (h : (s.setFreqConfig freq).1 = false) :
    (s.setFreqConfig freq).2 = s := by
  rw [Log.ElasticSearch.setFreqConfig] at h ⊢
  dsimp only at h ⊢
  split_ifs at h ⊢
  rfl

theorem setBatchStatsMaxSize_refused (size : ℤ) (h : (s.setBatchStatsMaxSize size).1 = false) :
    (s.setBatchStatsMaxSize size).2 = s := by
  rw [Log.ElasticSearch.setBatchStatsMaxSize] at h ⊢
  split_ifs at h ⊢
  rfl

theorem setBatchConfigMaxSize_refused (size : ℤ) (h : (s.setBatchConfigMaxSize size).1 = false) :
    (s.setBatchConfigMaxSize size).2 = s := by
  rw [Log.ElasticSearch.setBatchConfigMaxSize] at h ⊢
  split_ifs at h ⊢
  rfl

theorem enableLogging_refused (now : Int64) (h : (s.enableLogging now).1 = false) :
    (s.enableLogging now).2 = s := by
  rw [Log.ElasticSearch.enableLogging] at h ⊢
  split_ifs at h ⊢ <;> rfl

end Settings

/-- The status is read only. -/
theorem answers_status : Answers (status lib) :=
  .bind_silent (Silent.bind (Keeps.get fun _ => rfl) fun _ => Silent.pure _) fun _ => .send_ok _

theorem answers_disable (waited : List (Log.Transfer × ℕ)) : Answers (disable waited) :=
  answers_settingCall (fun _ h => absurd h (by simp)) _

end Answers

/-! ## All requests -/

/-- Each request is answered by its call. -/
theorem answers_call (lib : Libraries ρ) {q : Request} (h : q.DirectionKnown) :
    Answers (call lib q) := by
  cases q with
  | applySliceConfig =>
    exact answers_forApp (fun _ => rfl)
      (answers_policyCall (Rrm.atomic_applySliceConfigPolicy lib.sliceConfig) _ _)
  | removeSliceConfig =>
    exact answers_forApp (fun _ => rfl)
      (answers_policyCall (Rrm.atomic_removeSlice lib.sliceConfig) _ _)
  | changeUeSliceAssoc =>
    exact answers_forApp (fun _ => rfl)
      (answers_policyCall (Rrm.atomic_changeUeSliceAssociation lib.ueConfigReply) _ _)
  | autoUeSliceAssoc => exact answers_forApp (fun _ => rfl) (answers_autoUeSliceAssoc h)
  | cellReconfiguration =>
    exact answers_forApp (fun _ => rfl) (answers_cellReconfiguration _ _)
  | yamlCompat => exact answers_forApp (fun _ => rfl) (answers_yamlCompat _ _)
  | addMme =>
    exact answers_forApp (fun _ => rfl) (answers_policyCall
      (Plmn.atomic_changeMme Plmn.silent_addedMme lib.s1apConfig) _ _)
  | removeMme =>
    exact answers_forApp (fun _ => rfl) (answers_policyCall
      (Plmn.atomic_changeMme Plmn.silent_removedMme lib.s1apConfig) _ _)
  | changePlmn =>
    exact answers_forApp (fun _ => rfl)
      (answers_policyCall (Plmn.atomic_changePlmn lib.cellConfig) _ _)
  | rrcReconf => exact answers_forApp (fun _ => rfl) (answers_rrcReconf _ _)
  | rrcHo =>
    exact answers_forApp (fun _ => rfl) (answers_reasonCall (atomic_rrcHo _ _ _ _) _)
  | rrcX2HoNetControl =>
    exact answers_forApp (fun _ => rfl) (answers_reasonCall (atomic_rrcX2HoNetControl _ _ _) _)
  | obtainStats => exact answers_forApp (fun _ => rfl) (answers_obtainStats _)
  | obtainJsonStats => exact answers_forApp (fun _ => rfl) (answers_obtainJsonStats _ _)
  | obtainJsonStatsEnb => exact answers_forApp (fun _ => rfl) (answers_obtainJsonStatsEnb _ _ _)
  | obtainJsonStatsUe => exact answers_forApp (fun _ => rfl) (answers_obtainJsonStatsUe _ _)
  | getStatsReq =>
    exact answers_forApp (fun _ => rfl) (answers_textCall (silent_getStatsRequests _ _))
  | setStatsReq => exact answers_forApp (fun _ => rfl) (answers_setStatsReq _ _)
  | appDlTrigger => exact answers_forApp (fun _ => rfl) (answers_appDlTrigger _ _)
  | appRmTrigger => exact answers_forApp (fun _ => rfl) (answers_appRmTrigger _)
  | appConfTrigger => exact answers_forApp (fun _ => rfl) (answers_appConfTrigger _ _)
  | startMeas => exact answers_forApp (fun _ => rfl) (answers_startMeas _ _ _ _)
  | recorderObtainJsonStats =>
    exact answers_forApp (fun _ => rfl) (answers_recorderObtainJsonStats _)
  | listApi => exact .send_ok _
  | status => exact answers_forApp (fun _ => rfl) answers_status
  | addEndpoint ep =>
    exact answers_forApp (fun _ => rfl)
      (answers_settingCall (fun s => addEndpoint_refused s ep) _)
  | removeEndpoint waited ep =>
    exact answers_forApp (fun _ => rfl)
      (answers_settingCall (fun s => removeEndpoint_refused s waited ep) _)
  | setFreqStats freq =>
    exact answers_forApp (fun _ => rfl)
      (answers_settingCall (fun s => setFreqStats_refused s freq) _)
  | setFreqConfig freq =>
    exact answers_forApp (fun _ => rfl)
      (answers_settingCall (fun s => setFreqConfig_refused s freq) _)
  | setBatchStatsSize size =>
    exact answers_forApp (fun _ => rfl)
      (answers_settingCall (fun s => setBatchStatsMaxSize_refused s size) _)
  | setBatchConfigSize size =>
    exact answers_forApp (fun _ => rfl)
      (answers_settingCall (fun s => setBatchConfigMaxSize_refused s size) _)
  | enable now =>
    exact answers_forApp (fun _ => rfl)
      (answers_settingCall (fun s => enableLogging_refused s now) _)
  | disable waited => exact answers_forApp (fun _ => rfl) (answers_disable waited)

/-- An unknown direction is refused before the rest of the call answers. -/
theorem answered_of_unknown (lib : Libraries ρ) {id dir : Option String} {sliceId : UInt32}
    {body : String} (hdir : dir.getD "both" ∉ ["both", "dl", "ul"])
    (x : Exchange (Rrm.RrmManagement ρ)) :
    Answered
      { x with sent := x.sent ++
        [⟨.badRequest, errorObject ("unrecognized direction '" ++ dir.getD "both" ++ "'")⟩] }
      (exec (autoUeSliceAssoc lib id sliceId dir body) x) := by
  simp only [List.mem_cons, List.not_mem_nil, or_false, not_or] at hdir
  obtain ⟨hboth, hdl, hul⟩ := hdir
  have hparse : exec (parseDirection sliceId (dir.getD "both")) x = (.ok (-1, -1),
      { x with sent := x.sent ++
        [⟨.badRequest, errorObject ("unrecognized direction '" ++ dir.getD "both" ++ "'")⟩] }) := by
    rw [parseDirection, if_neg hboth, if_neg hdl, if_neg hul]
    rfl
  rw [autoUeSliceAssoc, exec_bind_of_ok hparse]
  dsimp only
  split
  · exact answers_refuseEmpty _ _
  · exact answers_tryPolicy (Rrm.atomic_autoUeSliceAssociation _ _ _ _ _) _

/-- The two answers to an unknown direction. -/
theorem answered_call_of_unknown (lib : Libraries ρ) {q : Request} (h : ¬ q.DirectionKnown)
    (x : Exchange (Controller ρ)) : ∃ refusal : Response, refusal.code = .badRequest ∧
      Answered { x with sent := x.sent ++ [refusal] } (exec (call lib q) x) := by
  cases q with
  | autoUeSliceAssoc id sliceId dir body =>
    refine ⟨⟨.badRequest, errorObject ("unrecognized direction '" ++ dir.getD "both" ++ "'")⟩, rfl,
      ?_⟩
    exact answered_forApp (fun _ => rfl) (answered_of_unknown lib h _)
  | _ => exact absurd trivial h

/-- A request is answered once, and without an effect if it is refused.  One with an unknown
direction is refused and then goes on to be answered once more. -/
theorem call_answers (lib : Libraries ρ) (q : Request) :
    (q.DirectionKnown → Answers (call lib q)) ∧
      (¬ q.DirectionKnown → ∀ x, ∃ refusal : Response, refusal.code = .badRequest ∧
        Answered { x with sent := x.sent ++ [refusal] } (exec (call lib q) x)) :=
  ⟨answers_call lib, answered_call_of_unknown lib⟩

end FlexRan.North
