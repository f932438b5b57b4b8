import FlexRan.App.Log
import FlexRan.Lib.Signal

/-!
# Recorder jobs

A job records all base stations at each of a number of consecutive ticks and hands what it has
recorded to a writer thread.  The recorder has one current job and one dump.  A request that comes
while a job is running replaces both, although its job is to start only afterwards: the running
job is never written.  Without such requests every job is written as a whole.

A tick has two steps, the emission of the signal and the update of the last tick; requests may
come in between.

## Main definitions

* `startMeas`, `tick`: the operations.
* `recorderStep`: requests and ticks in any order.
* `Complete`: every accepted job that has ended is written, with the chunks of its ticks.
* `OneAtATime`: a request does no harm to the current job.
-/
namespace FlexRan.App.Log

open Lib Protocol Rib

/-- A RIB in which no null pointer is found. -/
abbrev SoundRib := { r : Rib // BsReachable r }

/-- The last three fields are the history: the jobs accepted, the jobs handed to a writer with
their dumps, and for each tick so far what was there to record. -/
structure Recorder where
  dump : Option (List Chunk) := none
  currentJob : Option JobInfo := none
  /-- Slots with the tick they start at. -/
  taskTick : Signal ℕ := {}
  /-- The number of the tick that is running or next. -/
  t : ℕ := 0
  lastTick : ℕ := 0
  ticking : Bool := false
  accepted : List JobInfo := []
  written : List (JobInfo × List Chunk) := []
  chunks : List Chunk := []

/-- A request, with what the file system and the allocator have to say. -/
structure MeasRequest where
  duration : ℕ
  type : String
  canOpen : Bool
  reserves : Bool

def jobType? (type : String) : Option JobType :=
  if type = "all" then some .all
  else if type = "enb" then some .enb
  else if type = "stats" then some .stats
  else if type = "bin" then some .bin
  else none

def jobFilename (start : ℕ) (jt : JobType) : String :=
  let filename := "/tmp/record." ++ toString start ++ ".json"
  if jt = .bin then filename ++ ".bin" else filename

/-- All base stations at one point in time. -/
def recordBss (r : Rib) (now : Int64) : Except Fault Chunk :=
  r.getAvailableBaseStations.foldlM (fun m bsId => do
    let bd ← recordChunk r now bsId
    return m.insertIfNew bsId bd) ∅

/-- Dummy data to fill caches, written twice. -/
def fillCaches (r : Rib) (now : Int64) : Except Fault Unit :=
  forM r.getAvailableBaseStations fun bsId => do
    let _ ← recordChunk r now bsId
    let _ ← recordChunk r now bsId

/-- The id of the new job, if there is one. An allocation that fails is an exception. -/
def startMeas (r : Rib) (now : Int64) (req : MeasRequest) (s : Recorder) :
    Except Fault (Option String × Recorder) :=
  match jobType? req.type with
  | none => .ok (none, s)
  | some jt =>
    if req.duration < 1 then .ok (none, s)
    else do
      fillCaches r now
      let start := match s.currentJob with
        | some job => job.msEnd
        | none => s.lastTick + 2
      if !req.canOpen then return (none, s)
      else if !req.reserves then return (none, { s with dump := some [] })
      else
        let job : JobInfo :=
          { msStart := start, msEnd := start + req.duration
            filename := jobFilename start jt, type := jt }
        return (some (toString start),
          { s with
            dump := some [], currentJob := some job, taskTick := s.taskTick.connect start
            accepted := s.accepted ++ [job] })

def tick (r : Rib) (now : Int64) (conn ms : ℕ) (s : Recorder) : Except Fault Recorder :=
  match s.currentJob with
  | none => .ok { s with taskTick := s.taskTick.disconnect conn }
  | some job => do
    let m ← recordBss r now
    match s.dump with
    | none => .error .nullDereference
    | some dump =>
      if ms = job.msEnd - 1 then
        -- the job and the dump are moved to the writer thread
        return { s with
          written := s.written ++ [(job, dump ++ [m])], currentJob := none, dump := none
          taskTick := s.taskTick.disconnect conn }
      else return { s with dump := some (dump ++ [m]) }

/-- The slot of `subscribe_task_tick_extended` with period 1. -/
def tickSlot (r : Rib) (now : Int64) (conn start : ℕ) (s : Recorder) : Except Fault Recorder :=
  if s.t ≥ start ∧ (s.t - start) % 1 = 0 then tick r now conn s.t s else .ok s

inductive RecorderEvent
  | startMeas (r : SoundRib) (now : Int64) (req : MeasRequest)
  /-- The emission of the tick signal. -/
  | tick (r : SoundRib) (now : Int64)
  /-- The end of the loop of the task manager. -/
  | tickDone

def recorderStep (s : Recorder) : RecorderEvent → Except Fault Recorder
  | .startMeas r now req => Prod.snd <$> startMeas r now req s
  | .tick r now =>
    if s.ticking then .ok s
    else do
      let m ← recordBss r now
      let s ← emit Recorder.taskTick (tickSlot r now) s
      return { s with ticking := true, chunks := s.chunks ++ [m] }
  | .tickDone =>
    if s.ticking then .ok { s with ticking := false, lastTick := s.t, t := s.t + 1 } else .ok s

/-! ## What jobs are to record -/

/-- The chunks of the ticks of a job. -/
def recorded (chunks : List Chunk) (job : JobInfo) : List Chunk :=
  (chunks.drop job.msStart).take (job.msEnd - job.msStart)

/-- Every job that has ended is written once, in the order of the requests, with the chunks of its
ticks and no others; the jobs do not overlap, and have different files. -/
structure Complete (s : Recorder) : Prop where
  written : s.written = (s.accepted.filter fun job => job.msEnd ≤ s.chunks.length).map
    fun job => (job, recorded s.chunks job)
  separate : s.accepted.Pairwise fun a b => a.msEnd ≤ b.msStart ∧ a.filename ≠ b.filename

/-- The request gets to the point where it changes the dump. -/
def MeasRequest.Passes (req : MeasRequest) : Prop :=
  (jobType? req.type).isSome ∧ 1 ≤ req.duration ∧ req.canOpen = true

instance (req : MeasRequest) : Decidable req.Passes :=
  inferInstanceAs (Decidable (_ ∧ _ ∧ _))

/-- There is no current job when a request passes its checks, or it fails late before the job has
recorded anything. -/
def OneAtATime (s : Recorder) : RecorderEvent → Prop
  | .startMeas _ _ req =>
    req.Passes → s.currentJob = none ∨ req.reserves = false ∧ s.dump = some []
  | _ => True

/-! ## No fault -/

section Spec

variable {r : Rib} {now : Int64} {s s' : Recorder} {job : JobInfo} {chunks : List Chunk}

theorem recordBss_ok (h : BsReachable r) (now : Int64) : ∃ m, recordBss r now = .ok m := by
  have hloop : ∀ (l : List UInt64) (m : Chunk), (∀ b ∈ l, b ∈ r.getAvailableBaseStations) →
      ∃ m', l.foldlM (fun (m : Chunk) bsId => do
        let bd ← recordChunk r now bsId
        return m.insertIfNew bsId bd) m = .ok m' := by
    intro l
    induction l with
    | nil => exact fun m _ => ⟨m, rfl⟩
    | cons b l ih =>
      intro m hl
      obtain ⟨bd, hbd⟩ := recordChunk_ok h now (hl b (by simp))
      rw [List.foldlM_cons, hbd]
      exact ih _ fun c hc => hl c (List.mem_cons_of_mem _ hc)
  exact hloop _ ∅ fun _ hb => hb

theorem fillCaches_ok (h : BsReachable r) (now : Int64) : fillCaches r now = .ok () := by
  have hloop : ∀ l : List UInt64, (∀ b ∈ l, b ∈ r.getAvailableBaseStations) →
      (forM l fun bsId => do
        let _ ← recordChunk r now bsId
        let _ ← recordChunk r now bsId) = Except.ok () := by
    intro l
    induction l with
    | nil => exact fun _ => rfl
    | cons b l ih =>
      intro hl
      obtain ⟨bd, hbd⟩ := recordChunk_ok h now (hl b (by simp))
      rw [List.forM_cons, hbd]
      exact ih fun c hc => hl c (List.mem_cons_of_mem _ hc)
  exact hloop _ fun _ hb => hb

/-- A request is refused, or it fails late, or it starts a job. -/
theorem startMeas_cases (h : BsReachable r) (now : Int64) (req : MeasRequest) (s : Recorder) :
    (¬ req.Passes ∧ startMeas r now req s = .ok (none, s)) ∨
    (req.Passes ∧ req.reserves = false ∧
      startMeas r now req s = .ok (none, { s with dump := some [] })) ∨
    ∃ jt start, req.Passes ∧ req.reserves = true ∧
      start = (match s.currentJob with
        | some job => job.msEnd
        | none => s.lastTick + 2) ∧
      startMeas r now req s = .ok (some (toString start),
        { s with
          dump := some []
          currentJob := some
            { msStart := start, msEnd := start + req.duration
              filename := jobFilename start jt, type := jt }
          taskTick := s.taskTick.connect start
          accepted := s.accepted ++
            [{ msStart := start, msEnd := start + req.duration
               filename := jobFilename start jt, type := jt }] }) := by
  rw [startMeas, MeasRequest.Passes]
  cases jobType? req.type with
  | none => exact .inl ⟨by simp, rfl⟩
  | some jt =>
    dsimp only
    by_cases hduration : req.duration < 1
    · exact .inl ⟨fun h => absurd h.2.1 (by omega), if_pos hduration⟩
    · rw [if_neg hduration, fillCaches_ok h now]
      cases hopen : req.canOpen with
      | false => exact .inl ⟨by simp, rfl⟩
      | true =>
        have hpasses : (some jt).isSome = true ∧ 1 ≤ req.duration ∧ true = true :=
          ⟨rfl, by omega, rfl⟩
        cases hreserves : req.reserves with
        | false => exact .inr (.inl ⟨hpasses, rfl, rfl⟩)
        | true => exact .inr (.inr ⟨jt, _, hpasses, rfl, rfl, rfl⟩)

/-- What is written is written by ticks. -/
theorem startMeas_ok (h : BsReachable r) (now : Int64) (req : MeasRequest) (s : Recorder) :
    ∃ id s', startMeas r now req s = .ok (id, s') ∧ s'.written = s.written := by
  rcases startMeas_cases h now req s with ⟨-, heq⟩ | ⟨-, -, heq⟩ | ⟨jt, start, -, -, -, heq⟩ <;>
    exact ⟨_, _, heq, rfl⟩

/-- A request that does not get to the dump has no effect. -/
theorem eq_of_startMeas_none {req : MeasRequest} (h : startMeas r now req s = .ok (none, s'))
    (hpasses : ¬ req.Passes) : s' = s := by
  rw [startMeas] at h
  rw [MeasRequest.Passes] at hpasses
  cases htype : jobType? req.type with
  | none =>
    rw [htype] at h
    exact (Prod.mk.inj (Except.ok.inj h)).2.symm
  | some jt =>
    rw [htype] at h hpasses
    dsimp only at h
    split at h
    · exact (Prod.mk.inj (Except.ok.inj h)).2.symm
    · rename_i hduration
      obtain ⟨-, -, h⟩ := bind_eq_ok_iff.mp h
      split at h
      · exact (Prod.mk.inj (Except.ok.inj h)).2.symm
      · rename_i hopen
        exact absurd ⟨rfl, by omega, by simpa using hopen⟩ hpasses

/-- The jobs that are noted as accepted are those whose ids the requests are answered with. -/
theorem accepted_startMeas (h : BsReachable r) (now : Int64) (req : MeasRequest) (s : Recorder) :
    ∃ (job? : Option JobInfo) (s' : Recorder),
      startMeas r now req s = .ok (job?.map fun job => toString job.msStart, s') ∧
      s'.accepted = s.accepted ++ job?.toList := by
  rcases startMeas_cases h now req s with ⟨-, heq⟩ | ⟨-, -, heq⟩ | ⟨jt, start, -, -, -, heq⟩
  · exact ⟨none, _, heq, by simp⟩
  · exact ⟨none, _, heq, by simp⟩
  · rw [heq]
    exact ⟨some { msStart := start, msEnd := start + req.duration
                  filename := jobFilename start jt, type := jt }, _, rfl, rfl⟩

theorem tick_of_running {conn ms : ℕ} {m : Chunk} {dump : List Chunk}
    (hjob : s.currentJob = some job) (hdump : s.dump = some dump) (hm : recordBss r now = .ok m) :
    tick r now conn ms s =
      if ms = job.msEnd - 1 then
        .ok { s with
          written := s.written ++ [(job, dump ++ [m])], currentJob := none, dump := none
          taskTick := s.taskTick.disconnect conn }
      else .ok { s with dump := some (dump ++ [m]) } := by
  rw [tick, hjob]
  dsimp only
  rw [hm, hdump]
  rfl

theorem toList_jobFilename (n : ℕ) (jt : JobType) : ∃ rest, (jobFilename n jt).toList =
    "/tmp/record.".toList ++ (Nat.toDigits 10 n ++ '.' :: rest) := by
  rw [jobFilename]
  split
  · exact ⟨"json.bin".toList, by simp⟩
  · exact ⟨"json".toList, by simp⟩

theorem takeWhile_toDigits (n : ℕ) (rest : List Char) :
    (Nat.toDigits 10 n ++ '.' :: rest).takeWhile Char.isDigit = Nat.toDigits 10 n := by
  rw [List.takeWhile_append_of_pos fun c hc =>
    Nat.isDigit_of_mem_toDigits (by decide) (by decide) hc]
  simp

/-- Jobs that start at different ticks have different files. -/
theorem jobFilename_injective {a b : ℕ} {jt jt' : JobType}
    (h : jobFilename a jt = jobFilename b jt') : a = b := by
  obtain ⟨x, hx⟩ := toList_jobFilename a jt
  obtain ⟨y, hy⟩ := toList_jobFilename b jt'
  have heq := hx.symm.trans ((congrArg String.toList h).trans hy)
  have hdigits : Nat.toDigits 10 a = Nat.toDigits 10 b := by
    rw [← takeWhile_toDigits a x, ← takeWhile_toDigits b y, List.append_cancel_left heq]
  exact Nat.repr_injective (congrArg String.ofList hdigits)

end Spec

/-! ## Runs with one job at a time -/

/-- The running job has recorded the chunks since its start, and its slot is the only one. -/
structure Recorder.Running (s : Recorder) (job : JobInfo) : Prop where
  slot : ∃ c, s.taskTick.slots = [(c, job.msStart)]
  dump : s.dump = some (s.chunks.drop job.msStart)
  unfinished : s.chunks.length < job.msEnd

/-- Jobs are accepted, run and written one after the other. -/
structure Recorder.Inv (s : Recorder) : Prop where
  clock : s.lastTick = s.t - 1
  chunks : s.chunks.length = if s.ticking then s.t + 1 else s.t
  idle : s.currentJob = none → s.taskTick.slots = []
  running : ∀ job, s.currentJob = some job → s.Running job
  history : ∃ finished, s.accepted = finished ++ s.currentJob.toList ∧
    s.written = finished.map (fun job => (job, recorded s.chunks job)) ∧
    ∀ job ∈ finished, job.msEnd ≤ s.chunks.length
  ordered : s.accepted.Pairwise fun a b => a.msEnd ≤ b.msStart
  named : ∀ job ∈ s.accepted,
    job.msStart < job.msEnd ∧ job.filename = jobFilename job.msStart job.type

section Runs

variable {r : Rib} {now : Int64} {s s' : Recorder} {job : JobInfo} {chunks : List Chunk}

/-- What a job has recorded does not change after its end. -/
theorem recorded_append {chunks more : List Chunk} (h : job.msEnd ≤ chunks.length) :
    recorded (chunks ++ more) job = recorded chunks job := by
  rw [recorded, recorded, List.drop_append, List.take_append_of_le_length]
  rw [List.length_drop]
  omega

theorem length_recorded (h : job.msEnd ≤ chunks.length) :
    (recorded chunks job).length = job.msEnd - job.msStart := by
  rw [recorded, List.length_take, List.length_drop]
  omega

theorem inv_initial : Recorder.Inv {} where
  clock := rfl
  chunks := rfl
  idle _ := rfl
  running _ h := nomatch h
  history := ⟨[], rfl, rfl, by simp⟩
  ordered := List.Pairwise.nil
  named _ h := nomatch h

/-- The history after one more tick. -/
theorem history_append {finished : List JobInfo} {m : Chunk}
    (hwritten : s.written = finished.map fun job => (job, recorded s.chunks job))
    (hended : ∀ job ∈ finished, job.msEnd ≤ s.chunks.length) :
    s.written = finished.map fun job => (job, recorded (s.chunks ++ [m]) job) := by
  rw [hwritten]
  exact List.map_congr_left fun job hjob => by rw [recorded_append (hended job hjob)]

namespace Recorder.Inv

theorem tickDone (h : s.Inv) (hticking : s.ticking = true) :
    Recorder.Inv { s with ticking := false, lastTick := s.t, t := s.t + 1 } where
  clock := rfl
  chunks := by
    have hchunks := h.chunks
    rw [hticking] at hchunks
    exact hchunks
  idle := h.idle
  running job hjob := ⟨(h.running job hjob).slot, (h.running job hjob).dump,
    (h.running job hjob).unfinished⟩
  history := h.history
  ordered := h.ordered
  named := h.named

theorem mem_accepted (h : s.Inv) (hjob : s.currentJob = some job) : job ∈ s.accepted := by
  obtain ⟨finished, haccepted, -, -⟩ := h.history
  rw [haccepted, hjob]
  simp

/-- A tick without a job. -/
theorem tick_idle (h : s.Inv) (hticking : s.ticking = false) (hnone : s.currentJob = none)
    (m : Chunk) : Recorder.Inv { s with ticking := true, chunks := s.chunks ++ [m] } where
  clock := h.clock
  chunks := by
    have hchunks := h.chunks
    rw [hticking] at hchunks
    simpa using hchunks
  idle := h.idle
  running _ hjob := nomatch hnone.symm.trans hjob
  history := by
    obtain ⟨finished, haccepted, hwritten, hended⟩ := h.history
    refine ⟨finished, haccepted, history_append hwritten hended, fun job hjob => ?_⟩
    exact (hended job hjob).trans (by simp)
  ordered := h.ordered
  named := h.named

/-- A tick that is not the last one of the running job. -/
theorem tick_running (h : s.Inv) (hticking : s.ticking = false) (hjob : s.currentJob = some job)
    {m : Chunk} (hmore : s.t + 1 < job.msEnd) :
    Recorder.Inv { s with
      dump := some ((s.chunks ++ [m]).drop job.msStart), ticking := true
      chunks := s.chunks ++ [m] } where
  clock := h.clock
  chunks := by
    have hchunks := h.chunks
    rw [hticking] at hchunks
    simpa using hchunks
  idle hnone := nomatch hnone.symm.trans hjob
  running job' hjob' := by
    obtain rfl := Option.some.inj (hjob.symm.trans hjob')
    have hchunks := h.chunks
    rw [hticking] at hchunks
    refine ⟨(h.running job hjob).slot, rfl, ?_⟩
    simpa [hchunks] using hmore
  history := by
    obtain ⟨finished, haccepted, hwritten, hended⟩ := h.history
    refine ⟨finished, haccepted, history_append hwritten hended, fun job hjob => ?_⟩
    exact (hended job hjob).trans (by simp)
  ordered := h.ordered
  named := h.named

/-- The last tick of the running job. -/
theorem tick_last (h : s.Inv) (hticking : s.ticking = false) (hjob : s.currentJob = some job)
    {c : ℕ} (hslot : s.taskTick.slots = [(c, job.msStart)]) {m : Chunk}
    (hlast : s.t = job.msEnd - 1) (hstart : job.msStart ≤ s.t) :
    Recorder.Inv { s with
      written := s.written ++ [(job, (s.chunks ++ [m]).drop job.msStart)], currentJob := none
      dump := none, taskTick := s.taskTick.disconnect c, ticking := true
      chunks := s.chunks ++ [m] } where
  clock := h.clock
  chunks := by
    have hchunks := h.chunks
    rw [hticking] at hchunks
    simpa using hchunks
  idle _ := by simp [Signal.disconnect, hslot]
  running _ hjob := nomatch hjob
  history := by
    obtain ⟨finished, haccepted, hwritten, hended⟩ := h.history
    have hchunks : s.chunks.length = s.t := by
      have hchunks := h.chunks
      rwa [hticking] at hchunks
    have hunfinished := (h.running job hjob).unfinished
    have hall : recorded (s.chunks ++ [m]) job = (s.chunks ++ [m]).drop job.msStart := by
      refine List.take_of_length_le ?_
      rw [List.length_drop, List.length_append, List.length_singleton]
      omega
    refine ⟨finished ++ [job], ?_, ?_, fun j hj => ?_⟩
    · rw [haccepted, hjob]
      simp
    · rw [List.map_append, ← history_append hwritten hended, List.map_singleton, hall]
    · have hlength : (s.chunks ++ [m]).length = s.t + 1 := by simp [hchunks]
      refine Nat.le_trans ?_ hlength.ge
      rcases List.mem_append.mp hj with hj | hj
      · exact (hended j hj).trans (by omega)
      · rw [List.mem_singleton.mp hj]
        omega
  ordered := h.ordered
  named := h.named

/-- A new job. -/
theorem start (h : s.Inv) (hnone : s.currentJob = none) (duration : ℕ) (hduration : 1 ≤ duration)
    (jt : JobType) :
    let job : JobInfo :=
      { msStart := s.lastTick + 2, msEnd := s.lastTick + 2 + duration
        filename := jobFilename (s.lastTick + 2) jt, type := jt }
    Recorder.Inv { s with
      dump := some [], currentJob := some job
      taskTick := s.taskTick.connect (s.lastTick + 2), accepted := s.accepted ++ [job] } := by
  intro job
  have hstart : s.chunks.length ≤ s.lastTick + 2 := by
    rw [h.clock, h.chunks]
    split <;> omega
  obtain ⟨finished, haccepted, hwritten, hended⟩ := h.history
  rw [hnone, Option.toList_none, List.append_nil] at haccepted
  exact
    { clock := h.clock
      chunks := h.chunks
      idle := fun h => nomatch h
      running := fun job' hjob' => by
        obtain rfl := Option.some.inj hjob'
        refine ⟨⟨s.taskTick.next, ?_⟩, ?_, ?_⟩
        · simp [Signal.connect, h.idle hnone, job]
        · rw [List.drop_eq_nil_of_le hstart]
        · exact Nat.lt_of_le_of_lt hstart (Nat.lt_add_of_pos_right hduration)
      history := ⟨finished, by rw [haccepted]; rfl, hwritten, hended⟩
      ordered := by
        refine List.pairwise_append.mpr ⟨h.ordered, List.pairwise_singleton _ _, ?_⟩
        intro a ha b hb
        obtain rfl := List.mem_singleton.mp hb
        rw [haccepted] at ha
        exact (hended a ha).trans hstart
      named := fun job' hjob' => by
        rcases List.mem_append.mp hjob' with hjob' | hjob'
        · exact h.named job' hjob'
        · obtain rfl := List.mem_singleton.mp hjob'
          exact ⟨Nat.lt_add_of_pos_right hduration, rfl⟩ }

/-- A tick of the signal. -/
theorem tick (h : s.Inv) (hticking : s.ticking = false) (r : SoundRib) (now : Int64) :
    ∃ t m, recorderStep s (.tick r now) = .ok t ∧ t.Inv ∧ t.accepted = s.accepted ∧
      t.ticking = true ∧ t.chunks = s.chunks ++ [m] := by
  obtain ⟨m, hm⟩ := recordBss_ok r.2 now
  have hstep : ∀ s', emit Recorder.taskTick (tickSlot r now) s = .ok s' →
      recorderStep s (.tick r now) =
        .ok { s' with ticking := true, chunks := s'.chunks ++ [m] } := by
    intro s' hs'
    rw [recorderStep, hticking, hm]
    simp only [bind, Except.bind, hs']
    rfl
  have hchunks : s.chunks.length = s.t := by
    have hchunks := h.chunks
    rwa [hticking] at hchunks
  cases hjob : s.currentJob with
  | none =>
    exact ⟨_, m, hstep s (emit_nil (h.idle hjob)), h.tick_idle hticking hjob m, rfl, rfl, rfl⟩
  | some job =>
    obtain ⟨⟨c, hslot⟩, hdump, hunfinished⟩ := h.running job hjob
    rw [emit_singleton hslot, tickSlot] at hstep
    by_cases hstart : job.msStart ≤ s.t
    · -- the job records this tick
      have hdrop : (s.chunks ++ [m]).drop job.msStart = s.chunks.drop job.msStart ++ [m] :=
        List.drop_append_of_le_length (by omega)
      rw [if_pos ⟨hstart, Nat.mod_one _⟩, tick_of_running hjob hdump hm, ← hdrop] at hstep
      by_cases hlast : s.t = job.msEnd - 1
      · rw [if_pos hlast] at hstep
        exact ⟨_, m, hstep _ rfl, h.tick_last hticking hjob hslot hlast hstart, rfl, rfl, rfl⟩
      · rw [if_neg hlast] at hstep
        exact ⟨_, m, hstep _ rfl, h.tick_running hticking hjob (by omega), rfl, rfl, rfl⟩
    · -- the job has not begun
      have hdrop : (s.chunks ++ [m]).drop job.msStart = s.chunks.drop job.msStart := by
        have hlength : (s.chunks ++ [m]).length = s.t + 1 := by simp [hchunks]
        rw [List.drop_eq_nil_of_le (by omega), List.drop_eq_nil_of_le (by omega)]
      rw [if_neg (fun h => hstart h.1)] at hstep
      have hinv := h.tick_running hticking hjob (m := m) (by
        have := (h.named job (h.mem_accepted hjob)).1
        omega)
      rw [hdrop, ← hdump] at hinv
      exact ⟨_, m, hstep s rfl, hinv, rfl, rfl, rfl⟩

/-- The dump does not matter while there is no job. -/
theorem reset (h : s.Inv) (hnone : s.currentJob = none) :
    Recorder.Inv { s with dump := some [] } where
  clock := h.clock
  chunks := h.chunks
  idle := h.idle
  running _ hjob := nomatch hnone.symm.trans hjob
  history := h.history
  ordered := h.ordered
  named := h.named

/-- Every step with one job at a time succeeds and keeps the invariant. -/
theorem step (h : s.Inv) (e : RecorderEvent) (hG : OneAtATime s e) :
    ∃ t, recorderStep s e = .ok t ∧ t.Inv := by
  cases e with
  | startMeas r now req =>
    rw [recorderStep]
    rcases startMeas_cases r.2 now req s with ⟨-, heq⟩ | ⟨hpasses, -, heq⟩ |
      ⟨jt, start, hpasses, hreserves, hstart, heq⟩
    · exact ⟨s, by rw [heq]; rfl, h⟩
    · refine ⟨_, by rw [heq]; rfl, ?_⟩
      rcases hG hpasses with hnone | ⟨-, hdump⟩
      · exact h.reset hnone
      · rw [← hdump]
        exact h
    · have hnone : s.currentJob = none := by
        rcases hG hpasses with hnone | ⟨hfails, -⟩
        · exact hnone
        · exact absurd (hreserves.symm.trans hfails) (by simp)
      rw [hnone] at hstart
      obtain rfl := hstart
      exact ⟨_, by rw [heq]; rfl, h.start hnone req.duration hpasses.2.1 jt⟩
  | tick r now =>
    cases hticking : s.ticking with
    | true => exact ⟨s, by rw [recorderStep, if_pos hticking], h⟩
    | false =>
      obtain ⟨t, _, ht, hInv, -⟩ := h.tick hticking r now
      exact ⟨t, ht, hInv⟩
  | tickDone =>
    cases hticking : s.ticking with
    | true => exact ⟨_, by rw [recorderStep, if_pos hticking], h.tickDone hticking⟩
    | false => exact ⟨s, by rw [recorderStep, hticking]; rfl, h⟩

theorem complete (h : s.Inv) : Complete s where
  written := by
    obtain ⟨finished, haccepted, hwritten, hended⟩ := h.history
    have hfinished : finished.filter (fun job => job.msEnd ≤ s.chunks.length) = finished :=
      List.filter_eq_self.mpr fun job hjob => decide_eq_true (hended job hjob)
    have hcurrent : s.currentJob.toList.filter (fun job => job.msEnd ≤ s.chunks.length) = [] := by
      refine List.filter_eq_nil_iff.mpr fun job hjob => ?_
      have := (h.running job (Option.mem_toList.mp hjob)).unfinished
      simpa using this
    rw [haccepted, List.filter_append, hfinished, hcurrent, List.append_nil, hwritten]
  separate := by
    refine h.ordered.imp_of_mem fun {a b} ha hb hab => ⟨hab, fun hname => ?_⟩
    rw [(h.named a ha).2, (h.named b hb).2] at hname
    have hstart := jobFilename_injective hname
    have := (h.named a ha).1
    omega

end Recorder.Inv

/-- Ticks, after the one that may be running. -/
def ticks (l : List (SoundRib × Int64)) : List RecorderEvent :=
  .tickDone :: l.flatMap fun e => [.tick e.1 e.2, .tickDone]

/-- Ticks are recorded one by one, and nothing is accepted meanwhile. -/
theorem run_ticks (h : s.Inv) (l : List (SoundRib × Int64)) :
    ∃ t, run recorderStep s (ticks l) = .ok t ∧ t.Inv ∧ t.accepted = s.accepted ∧
      t.ticking = false ∧ t.chunks.length = s.chunks.length + l.length := by
  induction l using List.reverseRecOn with
  | nil =>
    cases hticking : s.ticking with
    | true =>
      refine ⟨_, ?_, h.tickDone hticking, rfl, rfl, rfl⟩
      rw [ticks, run_cons, recorderStep, if_pos hticking]
      rfl
    | false =>
      refine ⟨s, ?_, h, rfl, hticking, rfl⟩
      rw [ticks, run_cons, recorderStep, hticking]
      rfl
  | append_singleton l e ih =>
    obtain ⟨u, hu, hInv, haccepted, hticking, hlength⟩ := ih
    obtain ⟨v, m, hv, hInv', haccepted', hticking', hchunks⟩ := hInv.tick hticking e.1 e.2
    refine ⟨_, ?_, hInv'.tickDone hticking', haccepted'.trans haccepted, rfl, ?_⟩
    · have hsplit : ticks (l ++ [e]) = ticks l ++ [.tick e.1 e.2] ++ [.tickDone] := by
        simp [ticks]
      rw [hsplit]
      refine run_concat_eq_ok.mpr ⟨v, run_concat_eq_ok.mpr ⟨u, hu, hv⟩, ?_⟩
      rw [recorderStep, if_pos hticking']
    · simp only [hchunks, List.length_append, List.length_singleton, hlength]
      omega

/-- While requests do no harm to the current job, no step fails, every job that has ended is
written with the chunks of its ticks, and every other job is written after enough ticks. -/
theorem complete_of_oneAtATime {events : List RecorderEvent}
    (h : EachStep recorderStep {} OneAtATime events) :
    ∃ s, run recorderStep {} events = .ok s ∧ Complete s ∧
      ∀ job ∈ s.accepted, ∀ l : List (SoundRib × Int64),
        job.msEnd ≤ s.chunks.length + l.length →
        ∃ t, run recorderStep s (ticks l) = .ok t ∧ Complete t ∧
          (job, recorded t.chunks job) ∈ t.written ∧
          (recorded t.chunks job).length = job.msEnd - job.msStart := by
  obtain ⟨s, hs, hInv⟩ := run_total_of_eachStep (fun s e hs hG => hs.step e hG) inv_initial h
  refine ⟨s, hs, hInv.complete, fun job hjob l hend => ?_⟩
  obtain ⟨t, ht, hInv', haccepted, -, hlength⟩ := run_ticks hInv l
  rw [← hlength] at hend
  refine ⟨t, ht, hInv'.complete, ?_, length_recorded hend⟩
  rw [hInv'.complete.written]
  refine List.mem_map.mpr ⟨job, List.mem_filter.mpr ⟨?_, decide_eq_true hend⟩, rfl⟩
  rw [haccepted]
  exact hjob

end Runs

/-! ## Two requests -/

def emptyRib : SoundRib := ⟨{}, fun _ _ h => by simp at h⟩

def request (duration : ℕ) (type : String) : RecorderEvent :=
  .startMeas emptyRib 0 { duration := duration, type := type, canOpen := true, reserves := true }

/-- A job of one tick, and another one after it. -/
def oneAfterTheOther : List RecorderEvent :=
  [request 1 "all"] ++ ticks [(emptyRib, 0), (emptyRib, 1), (emptyRib, 2)] ++ [request 2 "bin"]

/-- A second job is requested while the first one is running. -/
def oneDuringTheOther : List RecorderEvent :=
  [request 1 "all", request 1 "stats"] ++
    ticks [(emptyRib, 0), (emptyRib, 1), (emptyRib, 2), (emptyRib, 3)]

theorem complete_oneAfterTheOther :
    ∃ s, run recorderStep {} oneAfterTheOther = .ok s ∧ Complete s := by
  have hidle : (run recorderStep {} ([request 1 "all"] ++
      ticks [(emptyRib, 0), (emptyRib, 1), (emptyRib, 2)])).map Recorder.currentJob = .ok none := by
    decide +kernel
  have hguard : EachStep recorderStep {} OneAtATime oneAfterTheOther := by
    refine eachStep_append.mpr ⟨eachStep_append.mpr ⟨?_, fun t _ => ?_⟩, fun t ht => ?_⟩
    · exact eachStep_cons.mpr ⟨fun _ => .inl rfl, fun t _ => eachStep_of_forall (by simp) t⟩
    · refine eachStep_of_forall (fun e he s => ?_) t
      simp only [ticks, List.flatMap_cons, List.flatMap_nil, List.cons_append, List.nil_append,
        List.mem_cons, List.not_mem_nil, or_false] at he
      rcases he with rfl | rfl | rfl | rfl | rfl | rfl | rfl <;> trivial
    · rw [ht] at hidle
      have hnone : t.currentJob = none := Except.ok.inj hidle
      exact eachStep_cons.mpr ⟨fun _ => .inl hnone, fun t _ => eachStep_of_forall (by simp) t⟩
  obtain ⟨s, hs, hcomplete, -⟩ := complete_of_oneAtATime hguard
  exact ⟨s, hs, hcomplete⟩

/-- The first job is never written: nothing is left to write. -/
theorem not_complete_oneDuringTheOther :
    ∃ s, run recorderStep {} oneDuringTheOther = .ok s ∧ s.currentJob = none ∧ ¬ Complete s := by
  have hrun : (run recorderStep {} oneDuringTheOther).map (fun s => (s.currentJob,
      s.written.length, (s.accepted.filter fun job => job.msEnd ≤ s.chunks.length).length)) =
      .ok (none, 1, 2) := by decide +kernel
  cases hs : run recorderStep {} oneDuringTheOther with
  | error f => exact nomatch (congrArg (Except.map _) hs).symm.trans hrun
  | ok s =>
    rw [hs] at hrun
    simp only [Except.map, Except.ok.injEq, Prod.mk.injEq] at hrun
    obtain ⟨hidle, hwritten, hended⟩ := hrun
    refine ⟨s, rfl, hidle, fun hcomplete => ?_⟩
    have hlength := congrArg List.length hcomplete.written
    rw [List.length_map, hwritten, hended] at hlength
    exact absurd hlength (by decide)

end FlexRan.App.Log
