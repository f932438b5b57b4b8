import FlexRan.Lib.Simulation
import FlexRan.North.Requests

/-!
# Requests in any order

A run of requests, with anything the controller does between them, ends as it does without the
requests that are refused.  A request with an unknown direction is answered with a refusal and
carried out all the same; it has two answers and is not counted as refused.

## Main definitions

* `Server`, `serverStep`: requests and whatever else the controller does.
* `refuses`: the requests that are refused.
* `run_serverStep_purge`: the run without them.
-/
namespace FlexRan.North

open Lib Lib.Operation Protocol App Rib

variable {ρ : Type}

/-! ## Runs -/

/-- What became of a request: whether its call returned, and what it sent. -/
structure Answer where
  returned : Bool
  responses : List Response
deriving DecidableEq

/-- A single response, with another code than `Ok`. -/
def Answer.refused : Answer → Bool
  | ⟨true, [r]⟩ => decide (r.code ≠ .ok)
  | _ => false

/-- The controller, with the answers to all requests so far. -/
structure Server (ρ : Type) where
  world : World (Controller ρ)
  answers : List Answer := []

/-- What happens to the server. -/
inductive ServerEvent (ρ : Type)
  | request (q : Request)
  /-- A message of an agent, a tick, or anything else the controller does. -/
  | internal (m : Op (Controller ρ) Unit)

/-- An exception that leaves a call ends the request; undefined behaviour ends the run. -/
def serve (lib : Libraries ρ) (w : World (Controller ρ)) (q : Request) :
    Except Fault (World (Controller ρ) × Answer) :=
  match exec (call lib q) ⟨w, []⟩ with
  | (.ok _, x) => .ok (x.world, ⟨true, x.sent⟩)
  | (.error e, x) => match undefined? e with
    | some f => .error f
    | none => .ok (x.world, ⟨false, x.sent⟩)

/-- A request is answered before the next event. -/
def serverStep (lib : Libraries ρ) (s : Server ρ) : ServerEvent ρ → Except Fault (Server ρ)
  | .request q => do
    let (w, answer) ← serve lib s.world q
    return { world := w, answers := s.answers ++ [answer] }
  | .internal m => do
    let w ← settle m s.world
    return { s with world := w }

/-- The request will be refused. -/
def refuses (lib : Libraries ρ) (s : Server ρ) : ServerEvent ρ → Bool
  | .request q => match serve lib s.world q with
    | .ok (_, answer) => answer.refused
    | .error _ => false
  | .internal _ => false

/-- A request that is refused leaves everything as it was. -/
theorem serve_refused {lib : Libraries ρ} {w w' : World (Controller ρ)} {q : Request}
    {answer : Answer} (h : serve lib w q = .ok (w', answer)) (hrefused : answer.refused = true) :
    w' = w := by
  rw [serve] at h
  split at h
  · rename_i result x hx
    obtain ⟨rfl, rfl⟩ := Prod.mk.inj (Except.ok.inj h)
    by_cases hdir : q.DirectionKnown
    · have hone := answers_call lib hdir ⟨w, []⟩
      rw [hx] at hone
      cases hone with
      | accepted => simp [Answer.refused] at hrefused
      | refused => rfl
    · obtain ⟨refusal, -, htwo⟩ := answered_call_of_unknown lib hdir ⟨w, []⟩
      rw [hx] at htwo
      cases htwo with
      | accepted => simp [Answer.refused] at hrefused
      | refused => rfl
  · split at h
    · exact nomatch h
    · obtain ⟨-, rfl⟩ := Prod.mk.inj (Except.ok.inj h)
      exact absurd hrefused (by simp [Answer.refused])

/-- The controller is the same, but only some of the requests have been made. -/
def OnlyAccepted (s s' : Server ρ) : Prop :=
  s'.world = s.world ∧ s'.answers = s.answers.filter fun a => !a.refused

/-- A refused request leaves no trace but its answer, and the others meet the same controller. -/
theorem purgeable_serverStep (lib : Libraries ρ) :
    Purgeable (serverStep lib) (refuses lib) OnlyAccepted where
  dropped s s' e t hs hrefuses hstep := by
    cases e with
    | internal => exact nomatch hrefuses
    | request q =>
      obtain ⟨⟨w, answer⟩, hw, ht⟩ := bind_eq_ok_iff.mp hstep
      obtain rfl := Except.ok.inj ht
      rw [refuses, hw] at hrefuses
      refine ⟨hs.1.trans (serve_refused hw hrefuses).symm, ?_⟩
      simp [hs.2, show answer.refused = true from hrefuses]
  kept s s' e t hs hrefuses hstep := by
    cases e with
    | internal m =>
      obtain ⟨w, hw, ht⟩ := bind_eq_ok_iff.mp hstep
      obtain rfl := Except.ok.inj ht
      refine ⟨{ s' with world := w }, ?_, rfl, hs.2⟩
      rw [serverStep, hs.1, hw]
      rfl
    | request q =>
      obtain ⟨⟨w, answer⟩, hw, ht⟩ := bind_eq_ok_iff.mp hstep
      obtain rfl := Except.ok.inj ht
      rw [refuses, hw] at hrefuses
      refine ⟨{ world := w, answers := s'.answers ++ [answer] }, ?_, rfl, ?_⟩
      · rw [serverStep, hs.1, hw]
        rfl
      · simp [hs.2, show answer.refused = false from hrefuses]

/-- A run ends as it does without the requests that are refused, and the answers to the others are
the same. -/
theorem run_serverStep_purge {lib : Libraries ρ} {w : World (Controller ρ)} {t : Server ρ}
    {events : List (ServerEvent ρ)} (hrun : run (serverStep lib) ⟨w, []⟩ events = .ok t) :
    ∃ t', run (serverStep lib) ⟨w, []⟩
        (purge (serverStep lib) (refuses lib) ⟨w, []⟩ events) = .ok t' ∧
      t'.world = t.world ∧ t'.answers = t.answers.filter fun a => !a.refused :=
  (purgeable_serverStep lib).run ⟨rfl, rfl⟩ hrun

/-- The second endpoint has no port. -/
def threeRequests : List (ServerEvent String) :=
  [.request (.addEndpoint "elastic:9200"), .request (.addEndpoint "elastic"), .request .status]

/-- The second request is refused, and is not missed. -/
theorem purge_threeRequests :
    ∃ t, run (serverStep plainLibraries) ⟨{ app := {} }, []⟩ threeRequests = .ok t ∧
      t.answers.map Answer.refused = [false, true, false] ∧
      ∃ t', run (serverStep plainLibraries) ⟨{ app := {} }, []⟩
          (purge (serverStep plainLibraries) (refuses plainLibraries) ⟨{ app := {} }, []⟩
            threeRequests) = .ok t' ∧
        t'.world = t.world ∧ t'.answers = t.answers.filter fun a => !a.refused := by
  have hrun : (run (serverStep plainLibraries) ⟨{ app := {} }, []⟩ threeRequests).map (fun t =>
      decide (t.answers.map Answer.refused = [false, true, false])) = .ok true := by
    decide +kernel
  obtain ⟨t, hrun, hanswers⟩ := exists_ok_of_decide hrun
  exact ⟨t, hrun, hanswers, run_serverStep_purge hrun⟩

end FlexRan.North
