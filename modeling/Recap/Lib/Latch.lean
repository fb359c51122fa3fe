import Mathlib

/-! Services that one request can break for good, so that the requests behind it are answered otherwise. -/

namespace Recap.Latch

variable {State Request Answer : Type*}

/-- The answers to requests that are made one after another. -/
def answers (serve : State → Request → Answer × State) : State → List Request → List Answer
  | _, [] => []
  | state, request :: rest =>
    (serve state request).1 :: answers serve (serve state request).2 rest

/--
How a service breaks.

While it works it gives each request its sound answer, and a request that spoils it breaks it.
Once broken it stays broken, and gives each request a degraded answer.
-/
structure Breaks (serve : State → Request → Answer × State) (works broken : State → Prop)
    (spoils : Request → Prop) (sound degraded : Request → Answer) : Prop where
  answer_sound : ∀ {state} request, works state → (serve state request).1 = sound request
  works_on : ∀ {state} request, works state → ¬ spoils request → works (serve state request).2
  spoilt : ∀ {state} request, works state → spoils request → broken (serve state request).2
  answer_degraded : ∀ {state} request, broken state → (serve state request).1 = degraded request
  stays_broken : ∀ {state} request, broken state → broken (serve state request).2

namespace Breaks

variable {serve : State → Request → Answer × State} {works broken : State → Prop}
  {spoils : Request → Prop} {sound degraded : Request → Answer}

/-- A broken service gives degraded answers for the rest of its life. -/
theorem answers_broken (breaks : Breaks serve works broken spoils sound degraded) {state : State}
    (isBroken : broken state) (requests : List Request) :
    answers serve state requests = requests.map degraded := by
  -- The induction is on the requests, behind each of which the service is still broken.
  induction requests generalizing state with
  | nil => rfl
  | cons request rest ih =>
    have later := ih (breaks.stays_broken request isBroken)
    rw [answers, breaks.answer_degraded request isBroken, later, List.map_cons]

/--
A service that works gives all requests their sound answers exactly when no request spoils it in
front of one whose degraded answer is another one.
-/
theorem answers_eq_iff (breaks : Breaks serve works broken spoils sound degraded) {state : State}
    (working : works state) (requests : List Request) :
    answers serve state requests = requests.map sound ↔
      requests.Pairwise fun earlier later => spoils earlier → degraded later = sound later := by
  induction requests generalizing state with
  | nil => simp [answers]
  | cons request rest ih =>
    rw [answers, breaks.answer_sound request working, List.map_cons, List.pairwise_cons, List.cons.injEq]
    by_cases harm : spoils request
    · -- All requests behind the one that spoils the service get degraded answers.
      have isBroken := breaks.spoilt request working harm
      rw [breaks.answers_broken isBroken, List.map_inj_left]
      constructor
      · intro ⟨_, same⟩
        refine ⟨fun later member _ => same later member, ?_⟩
        exact List.pairwise_of_forall_mem_list fun _ _ later member _ => same later member
      · intro ⟨same, _⟩
        exact ⟨rfl, fun later member => same later member harm⟩
    · -- The service works on, so that only the requests behind this one count.
      have onward := ih (breaks.works_on request working harm)
      rw [onward]
      simp [harm]

/-- Where no request spoils the service, all of them get their sound answers. -/
theorem answers_of_harmless (breaks : Breaks serve works broken spoils sound degraded)
    {state : State} (working : works state) {requests : List Request}
    (harmless : ∀ request ∈ requests, ¬ spoils request) :
    answers serve state requests = requests.map sound := by
  apply (breaks.answers_eq_iff working requests).mpr
  exact List.pairwise_of_forall_mem_list fun earlier member _ _ harm =>
    absurd harm (harmless earlier member)

end Breaks

end Recap.Latch
