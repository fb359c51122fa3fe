import Recap.SporeNet.Registration

/-! The ids of all accounts, which sign-ups draw from a generator that is seeded with the time. -/

namespace Recap.SporeNet.Registration

open Recap.Blaze

namespace World

/-- An account has its id in memory, in its file or in both. -/
def HasId (w : World) (mail : Bytes) (id : Int64) : Prop :=
  (∃ user, w.sUsersByEmail mail = some user ∧ user.mAccount.id = id) ∨
    ∃ user, w.files mail = some (.written user) ∧ user.mAccount.id = id

/-- No two accounts have the same id. -/
def Distinct (w : World) : Prop :=
  ∀ mail other id, w.HasId mail id → w.HasId other id → mail = other

end World

/-- What accounts go through. -/
inductive Input where
  /-- The sign-up happens at a time, whatever else its request depends on. -/
  | signUp (time : UInt64) (env : Environment) (request : Request)
  | login (mail password : Bytes)
  | removeUser (mail : Bytes)
  /-- The server is started again, with nobody logged in. -/
  | restart

/-- `srand(time(NULL))` and `rand()` -/
def drawn (rand : UInt32 → Int32) (time : UInt64) : Int64 := (rand time.toUInt32).toInt64

/-- `UserManager::Login`, as far as it changes who is logged in. -/
def login (w : World) (mail password : Bytes) : World :=
  match w.sUsersByEmail mail, w.files mail with
  | none, some (.written user) =>
    if user.mPassword = password then
      { w with sUsersByEmail := Function.update w.sUsersByEmail mail (some user) }
    else w
  | _, _ => w

/-- `UserManager::RemoveUser` -/
def removeUser (w : World) (mail : Bytes) : World :=
  { w with sUsersByEmail := Function.update w.sUsersByEmail mail none }

/-- The environment in which the generator has just been seeded. -/
def Environment.seeded (env : Environment) (rand : UInt32 → Int32) (time : UInt64) : Environment :=
  { env with random := drawn rand time }

def step (rand : UInt32 → Int32) (w : World) : Input → Option World
  | .signUp time env request => some (signUp (env.seeded rand time) request w).2
  | .login mail password => some (login w mail password)
  | .removeUser mail => some (removeUser w mail)
  | .restart => some { w with sUsersByEmail := fun _ => none }

/-- A sign-up that makes an account draws an id that no other account has. -/
def Fresh (rand : UInt32 → Int32) (w : World) : Input → Prop
  | .signUp time env request =>
    ¬ Refused env request w → env.signUpSave = .saved → ∀ mail, ¬ w.HasId mail (drawn rand time)
  | .login _ _ | .removeUser _ | .restart => True

variable {rand : UInt32 → Int32} {w : World}

/-- A world in which every id was one before is as good as it was. -/
theorem World.Distinct.fewer {after : World} (distinct : w.Distinct)
    (fewer : ∀ mail id, after.HasId mail id → w.HasId mail id) : after.Distinct :=
  fun mail other id first second => distinct mail other id (fewer _ _ first) (fewer _ _ second)

/-- A login brings the id of the file into memory. -/
theorem hasId_login {mail password other : Bytes} {id : Int64}
    (has : (login w mail password).HasId other id) : w.HasId other id := by
  unfold login at has
  split at has
  · rename_i user _ stored
    split at has
    · -- The user who is new in memory is the one of the file.
      rcases has with ⟨found, online, same⟩ | file
      · by_cases here : other = mail
        · subst here
          obtain rfl : user = found := by simpa using online
          exact .inr ⟨user, stored, same⟩
        · exact .inl ⟨found, by simpa [Function.update_of_ne here] using online, same⟩
      · exact .inr file
    · exact has
  · exact has

theorem hasId_removeUser {mail other : Bytes} {id : Int64}
    (has : (removeUser w mail).HasId other id) : w.HasId other id := by
  rcases has with ⟨user, online, same⟩ | file
  · by_cases here : other = mail
    · subst here
      simp [removeUser] at online
    · refine .inl ⟨user, ?_, same⟩
      simpa [removeUser, Function.update_of_ne here] using online
  · exact .inr file

/-- What a sign-up leaves is what it has saved, unless it was refused. -/
theorem signUp_snd {env : Environment} {request : Request} (new : ¬ Refused env request w) :
    (signUp env request w).2 = (save env.signUpSave (bareUser env request) w).2 := by
  rw [signUp_new new]
  obtain ⟨saved, after⟩ := save env.signUpSave (bareUser env request) w
  cases saved <;> rfl

/-- A mail address that is not refused has no account yet. -/
theorem no_id_of_new {env : Environment} {request : Request} (new : ¬ Refused env request w)
    (id : Int64) : ¬ w.HasId request.mail id := by
  unfold Refused at new
  rw [not_or, not_or] at new
  rintro (⟨user, online, -⟩ | ⟨user, stored, -⟩)
  · exact new.1 (by rw [online]; rfl)
  · exact new.2.2 (by rw [stored]; rfl)

/-- A sign-up that is saved adds one account, which has the id that was drawn. -/
theorem hasId_saved {env : Environment} {request : Request} (new : ¬ Refused env request w)
    (mail : Bytes) (id : Int64) :
    (save .saved (bareUser env request) w).2.HasId mail id ↔
      w.HasId mail id ∨ mail = request.mail ∧ env.random = id := by
  have named : (bareUser env request).mUsername = request.mail := rfl
  constructor
  · rintro (online | ⟨user, stored, same⟩)
    · exact .inl (.inl online)
    · by_cases here : mail = request.mail
      · subst here
        obtain rfl : bareUser env request = user := by simpa [save, named] using stored
        exact .inr ⟨rfl, same⟩
      · refine .inl (.inr ⟨user, ?_, same⟩)
        simpa [save, named, Function.update_of_ne here] using stored
  · rintro (has | ⟨rfl, same⟩)
    · -- The account is under another mail address, which the save leaves alone.
      have other : mail ≠ request.mail := by
        rintro rfl
        exact no_id_of_new new id has
      rcases has with online | ⟨user, stored, same⟩
      · exact .inl online
      · refine .inr ⟨user, ?_, same⟩
        simpa [save, named, Function.update_of_ne other] using stored
    · exact .inr ⟨bareUser env request, by simp [save, named], same⟩

/-- A file that is not saved well has no id. -/
theorem hasId_unsaved {result : SaveResult} (failed : result ≠ .saved) {user : UserRecord}
    {mail : Bytes} {id : Int64} (has : (save result user w).2.HasId mail id) : w.HasId mail id := by
  -- A file that is cut short has no id, whatever stood in it before.
  cases result with
  | saved => exact absurd rfl failed
  | notOpened => exact has
  | cutShort =>
    rcases has with online | ⟨found, stored, same⟩
    · exact .inl online
    · by_cases here : mail = user.mUsername
      · subst here
        simp [save] at stored
      · refine .inr ⟨found, ?_, same⟩
        simpa [save, Function.update_of_ne here] using stored

/-- A sign-up keeps the ids apart exactly when it draws one that nobody has, or makes no account. -/
theorem distinct_signUp_iff (distinct : w.Distinct) (env : Environment) (request : Request) :
    (signUp env request w).2.Distinct ↔
      (¬ Refused env request w → env.signUpSave = .saved →
        ∀ mail, ¬ w.HasId mail env.random) := by
  by_cases refused : Refused env request w
  · obtain ⟨message, same⟩ := signUp_refused refused
    rw [same]
    exact iff_of_true distinct fun new => absurd refused new
  · rw [signUp_snd refused]
    by_cases saved : env.signUpSave = .saved
    · rw [saved]
      have ids := hasId_saved refused
      constructor
      · intro after _ _ mail has
        -- The new account has the same id, so it would be this one.
        have same := after mail request.mail env.random ((ids _ _).mpr (.inl has))
          ((ids _ _).mpr (.inr ⟨rfl, rfl⟩))
        exact no_id_of_new refused env.random (same ▸ has)
      · intro fresh mail other id first second
        have fresh := fresh refused rfl
        rcases (ids _ _).mp first with before | ⟨rfl, rfl⟩
        · rcases (ids _ _).mp second with before' | ⟨rfl, rfl⟩
          · exact distinct mail other id before before'
          · exact absurd before (fresh mail)
        · rcases (ids _ _).mp second with before' | ⟨rfl, -⟩
          · exact absurd before' (fresh other)
          · rfl
    · refine iff_of_true (distinct.fewer fun mail id has => hasId_unsaved saved has) ?_
      exact fun _ same => absurd same saved

/-- One step keeps the ids apart exactly when it draws no id that is in use. -/
theorem distinct_step_iff (rand : UInt32 → Int32) (distinct : w.Distinct) {input : Input}
    {next : World} (taken : step rand w input = some next) : next.Distinct ↔ Fresh rand w input := by
  -- Only a sign-up can give an account an id that it did not have.
  cases input with
  | signUp time env request =>
    obtain rfl := Option.some_inj.mp taken
    exact distinct_signUp_iff distinct (env.seeded rand time) request
  | login mail password =>
    obtain rfl := Option.some_inj.mp taken
    exact iff_of_true (distinct.fewer fun _ _ => hasId_login) trivial
  | removeUser mail =>
    obtain rfl := Option.some_inj.mp taken
    exact iff_of_true (distinct.fewer fun _ _ => hasId_removeUser) trivial
  | restart =>
    obtain rfl := Option.some_inj.mp taken
    refine iff_of_true (distinct.fewer fun mail id has => ?_) trivial
    rcases has with ⟨user, online, -⟩ | file
    · cases online
    · exact .inr file

/--
All accounts have different ids all along a run exactly when those that were there at first do, and
each account that a sign-up makes draws an id that nobody has.
-/
theorem distinct_iff_fresh (rand : UInt32 → Int32) (w : World) (inputs : List Input) :
    w.Distinct ∧ Runs.Along (step rand) (Fresh rand) w inputs ↔
      ∀ front, front <+: inputs → (Runs.final (step rand) w front).Distinct := by
  -- The run lemma carries the step along, from a state that has to be distinct at first.
  have run (start : w.Distinct) := @Runs.Along.iff_final World Input (step rand) (fun _ => True)
    World.Distinct (Fresh rand) (fun _ _ _ _ _ _ => trivial)
    (fun s input refused => by cases input <;> cases refused)
    (fun s input next _ distinct taken => distinct_step_iff rand distinct taken)
    inputs w trivial start
  constructor
  · exact fun both => (run both.1).mp both.2
  · intro everywhere
    have start : w.Distinct := everywhere [] (List.nil_prefix)
    exact ⟨start, (run start).mpr everywhere⟩

/-- With any generator, two accounts that are made in the same second have one id. -/
theorem not_distinct :
    ¬ ∃ rand : UInt32 → Int32, ∀ inputs : List Input,
      (Runs.final (step rand) { sUsersByEmail := fun _ => none, files := fun _ => none }
        inputs).Distinct := by
  rintro ⟨rand, always⟩
  have ended := always [.signUp 1700000000 calm
      { name := ascii "a", mail := ascii "a", pass := ascii "p", avatar := ascii "1" },
    .signUp 1700000000 calm
      { name := ascii "b", mail := ascii "b", pass := ascii "p", avatar := ascii "1" }]
  have same := ended (ascii "a") (ascii "b") (drawn rand 1700000000)
    (.inr ⟨_, rfl, rfl⟩) (.inr ⟨_, rfl, rfl⟩)
  exact absurd same (by decide)

end Recap.SporeNet.Registration
