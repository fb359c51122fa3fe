import Recap.SporeNet.Part
import Recap.SporeNet.SquadOwnership

/-! The registration of a new user, and what it leaves behind where it goes wrong. -/

namespace Recap.SporeNet.Registration

open Recap.Blaze

/-- A user object, by what its file is written from. -/
structure UserRecord extends User where
  mName : Bytes
  mUsername : Bytes
  mPassword : Bytes
  mParts : List Part := []

/-- A file of the storage, which may have been cut short. -/
inductive UserFile where
  | written (user : UserRecord)
  | broken

/-- The users that are logged in, and the files of the storage, each under a mail address. -/
structure World where
  sUsersByEmail : Bytes → Option UserRecord
  files : Bytes → Option UserFile

/-- What comes of saving a file. -/
inductive SaveResult where
  | saved
  /-- The file cannot be opened and stays as it is. -/
  | notOpened
  /-- The file is opened, but cannot be written to its end. -/
  | cutShort
deriving DecidableEq

/-- What a request depends on besides its fields. -/
structure Environment where
  templates : TemplateDatabase
  /-- The random number that becomes the id of the account. -/
  random : Int64
  /-- The list of parts that every user starts with: no file, a file without a list, or a list. -/
  creatureParts : Option (Option (List (Option Part.JsonPart)))
  /-- The text of the error that looking for the user's file throws, if it throws one. -/
  existsError : Option Bytes
  signUpSave : SaveResult
  finalSave : SaveResult

structure Request where
  name : Bytes
  mail : Bytes
  pass : Bytes
  avatar : Bytes

/-- What a request may be stopped by. -/
inductive Fault where
  | runtimeError (what : Bytes)
  /-- A `std::invalid_argument` or a `std::out_of_range`, which are no runtime errors. -/
  | logicError
  | undefined

/-- What the client, or nobody, is told. -/
inductive Reply where
  | success
  | failure (message : Bytes)
  | uncaught
  | undefined

/-- `std::stoi`, which throws if there is no digit, or if the number is no `int`. -/
def stoi (value : Bytes) : Option Int32 :=
  let (negative, digits) := match value.dropWhile isSpace with
    | 45 :: rest => (true, leadingDigits 10 rest)
    | 43 :: rest => (false, leadingDigits 10 rest)
    | rest => (false, leadingDigits 10 rest)
  let number : Int := if negative then -(digitsValue 10 digits) else digitsValue 10 digits
  if digits.isEmpty ∨ number < -2 ^ 31 ∨ 2 ^ 31 ≤ number then none else some (Int32.ofInt number)

/-- `User::Save`, with whether the file could be saved. -/
def save (result : SaveResult) (user : UserRecord) (world : World) : Bool × World :=
  match result with
  | .saved =>
    (true, { world with files := Function.update world.files user.mUsername (some (.written user)) })
  | .notOpened => (false, world)
  | .cutShort =>
    (false, { world with files := Function.update world.files user.mUsername (some .broken) })

/-- The user object that a request makes first, without creatures and squads. -/
def bareUser (env : Environment) (request : Request) : UserRecord :=
  { mName := request.name, mUsername := request.mail, mPassword := request.pass,
    mAccount := { id := env.random } }

/-- `UserManager::SignUp`, which saves the bare user. -/
def signUp (env : Environment) (request : Request) (world : World) : Except Fault UserRecord × World :=
  let taken : Fault := .runtimeError (ascii "There is already a registered user with that e-mail")
  if (world.sUsersByEmail request.mail).isSome then (.error taken, world)
  else
    let user := bareUser env request
    match env.existsError with
    | some what => (.error (.runtimeError what), world)
    | none =>
      if (world.files request.mail).isSome then (.error taken, world)
      else match save env.signUpSave user world with
        | (true, world) => (.ok user, world)
        | (false, world) => (.error (.runtimeError (ascii "Failed to save new user")), world)

/-- The parts that the user starts with, unless the file has no list of them. -/
def addParts (env : Environment) (user : UserRecord) : Option UserRecord :=
  match env.creatureParts with
  | none => some user
  | some none => none
  | some (some templates) => some { user with mParts := user.mParts ++ templates.map Part.ofJson }

/-- All that the request does with the new user. The result of the last save is not looked at. -/
def complete (env : Environment) (request : Request) (user : UserRecord) (world : World) :
    Except Fault Unit × World :=
  match addParts env user with
  | none => (.error .undefined, world)
  | some user =>
    match stoi request.avatar with
    | none => (.error .logicError, world)
    | some avatar =>
      -- The first three templates are read without looking for them.
      if env.templates.length < 3 then (.error .undefined, world)
      else
        let user := { user with
          toUser := User.registered env.templates user.mAccount.id avatar.toUInt32 }
        (.ok (), (save env.finalSave user world).2)

/-- Only runtime errors are caught. -/
def Fault.reply : Fault → Reply
  | .runtimeError what => .failure what
  | .logicError => .uncaught
  | .undefined => .undefined

/-- `recap_game_registration` -/
def register (env : Environment) (request : Request) (world : World) : Reply × World :=
  match signUp env request world with
  | (.error fault, world) => (fault.reply, world)
  | (.ok user, world) =>
    match complete env request user world with
    | (.error fault, world) => (fault.reply, world)
    | (.ok (), world) => (.success, world)

/-- What a fully created user is: the one that was asked for, with creatures and squads. -/
structure Complete (env : Environment) (request : Request) (user : UserRecord) : Prop where
  named : user.mName = request.name ∧ user.mPassword = request.pass
  avatar : (stoi request.avatar).map Int32.toUInt32 = some user.mAccount.avatarId
  creatures : user.mCreatures ≠ []
  squads : user.mSquads.map Squad.mCreatureIds =
    (env.templates.take 3).map fun template => Function.update (fun _ => 0) 0 template.mNoun

/-- A success is told of a fully created user, and an error leaves everything as it was. -/
def Atomic (env : Environment) (request : Request) (before : World) : Reply × World → Prop
  | (.success, after) =>
    ∃ user, after.files request.mail = some (.written user) ∧ Complete env request user
  | (.failure _, after) => after = before
  | (.uncaught, _) => False
  | (.undefined, _) => False

/-- The mail address is taken, or nobody can tell. -/
def Refused (env : Environment) (request : Request) (world : World) : Prop :=
  (world.sUsersByEmail request.mail).isSome ∨ env.existsError.isSome ∨
    (world.files request.mail).isSome

/-- All that the request goes through with once the bare user is saved. -/
structure Smooth (env : Environment) (request : Request) : Prop where
  signUp : env.signUpSave = .saved
  parts : env.creatureParts ≠ some none
  avatar : (stoi request.avatar).isSome
  templates : 3 ≤ env.templates.length ∧ env.templates.length % 2 ^ 32 ≠ 0
  last : env.finalSave = .saved

/-- A sign-up that is refused leaves everything as it was. -/
theorem signUp_refused {env : Environment} {request : Request} {world : World}
    (refused : Refused env request world) :
    ∃ message, signUp env request world = (.error (.runtimeError message), world) := by
  -- None of the three refusals comes after anything was saved.
  unfold signUp
  by_cases online : (world.sUsersByEmail request.mail).isSome
  · rw [if_pos online]
    exact ⟨_, rfl⟩
  · rw [if_neg online]
    cases unknown : env.existsError with
    | some what => exact ⟨what, rfl⟩
    | none =>
      have stored : (world.files request.mail).isSome := by
        obtain taken | taken | taken := refused
        · exact absurd taken online
        · rw [unknown] at taken
          cases taken
        · exact taken
      dsimp only
      rw [if_pos stored]
      exact ⟨_, rfl⟩

/-- Past the checks, a sign-up is the save of the bare user. -/
theorem signUp_new {env : Environment} {request : Request} {world : World}
    (new : ¬ Refused env request world) :
    signUp env request world =
      match save env.signUpSave (bareUser env request) world with
      | (true, world) => (.ok (bareUser env request), world)
      | (false, world) => (.error (.runtimeError (ascii "Failed to save new user")), world) := by
  unfold Refused at new
  rw [not_or, not_or] at new
  obtain ⟨offline, known, free⟩ := new
  unfold signUp
  rw [if_neg offline, Option.not_isSome_iff_eq_none.mp known]
  dsimp only
  rw [if_neg free]

/-- A request that is refused leaves everything as it was. -/
theorem register_refused {env : Environment} {request : Request} {world : World}
    (refused : Refused env request world) :
    ∃ message, register env request world = (.failure message, world) := by
  obtain ⟨message, same⟩ := signUp_refused refused
  unfold register
  rw [same]
  exact ⟨message, rfl⟩

/-- Past the checks, the request depends on how the bare user is saved. -/
theorem register_new {env : Environment} {request : Request} {world : World}
    (new : ¬ Refused env request world) :
    register env request world =
      match save env.signUpSave (bareUser env request) world with
      | (true, world) =>
        match complete env request (bareUser env request) world with
        | (.error fault, world) => (fault.reply, world)
        | (.ok (), world) => (.success, world)
      | (false, world) => (.failure (ascii "Failed to save new user"), world) := by
  unfold register
  rw [signUp_new new]
  obtain ⟨saved, after⟩ := save env.signUpSave (bareUser env request) world
  cases saved <;> rfl

/-- The parts are added to the user and change nothing else of it, or they cannot be read. -/
theorem addParts_cases (env : Environment) (user : UserRecord) :
    (env.creatureParts = some none ∧ addParts env user = none) ∨
      (env.creatureParts ≠ some none ∧ ∃ parts, addParts env user = some { user with mParts := parts }) := by
  -- Without a file of parts, the user keeps those it has.
  unfold addParts
  cases env.creatureParts with
  | none => exact .inr ⟨by simp, user.mParts, rfl⟩
  | some list =>
    cases list with
    | none => exact .inl ⟨rfl, rfl⟩
    | some templates => exact .inr ⟨by simp, _, rfl⟩

/-- The user that the last save writes. -/
def finalUser (env : Environment) (request : Request) (parts : List Part) (avatar : Int32) :
    UserRecord :=
  { bareUser env request with
    mParts := parts
    toUser := User.registered env.templates env.random avatar.toUInt32 }

/-- A user that everything went well for is complete, unless no creature was unlocked. -/
theorem complete_finalUser {env : Environment} {request : Request} {avatar : Int32}
    (valid : stoi request.avatar = some avatar) (enough : 3 ≤ env.templates.length)
    (parts : List Part) :
    Complete env request (finalUser env request parts avatar) ↔ env.templates.length % 2 ^ 32 ≠ 0 := by
  -- The user has as many creatures as there were rewards, which are counted in 32 bits.
  have ids : (finalUser env request parts avatar).creatureIds =
      User.ids (env.templates.length % 2 ^ 32) := User.unlocked_creatureIds env.templates env.random
  have count := congrArg List.length ids
  unfold User.creatureIds User.ids at count
  rw [List.length_map, List.length_map, List.length_range] at count
  constructor
  · intro complete none_
    apply complete.creatures
    rw [← List.length_eq_zero_iff, count, none_]
  · intro some_
    refine ⟨⟨rfl, rfl⟩, by rw [valid]; rfl, ?_, User.registered_squads env.random _ enough⟩
    intro empty
    rw [empty] at count
    exact some_ count.symm

/-- The bare user is not complete. -/
theorem not_complete_bareUser (env : Environment) (request : Request) :
    ¬ Complete env request (bareUser env request) := by
  intro complete
  exact complete.creatures rfl

/-- The last save reports nothing, but leaves the complete user only if it goes well. -/
theorem success_iff {env : Environment} {request : Request} {before : World} {avatar : Int32}
    (bare : before.files request.mail = some (.written (bareUser env request)))
    (valid : stoi request.avatar = some avatar) (enough : 3 ≤ env.templates.length)
    (parts : List Part) :
    (∃ user, (save env.finalSave (finalUser env request parts avatar) before).2.files request.mail =
        some (.written user) ∧ Complete env request user) ↔
      env.templates.length % 2 ^ 32 ≠ 0 ∧ env.finalSave = .saved := by
  have mail : (finalUser env request parts avatar).mUsername = request.mail := rfl
  rw [← complete_finalUser valid enough parts]
  unfold save
  cases env.finalSave with
  | saved => simp [mail]
  | notOpened =>
    -- The file still has the bare user.
    simp [bare, not_complete_bareUser]
  | cutShort => simp [mail]

/-- What the rest of a request makes of a saved bare user. -/
theorem atomic_saved_iff {env : Environment} {request : Request} {before world : World}
    (bare : world.files request.mail = some (.written (bareUser env request))) :
    (Atomic env request before <| match complete env request (bareUser env request) world with
      | (.error fault, world) => (fault.reply, world)
      | (.ok (), world) => (.success, world)) ↔
    env.creatureParts ≠ some none ∧ (stoi request.avatar).isSome ∧
      (3 ≤ env.templates.length ∧ env.templates.length % 2 ^ 32 ≠ 0) ∧ env.finalSave = .saved := by
  unfold complete
  obtain ⟨unread, added⟩ | ⟨read, parts, added⟩ := addParts_cases env (bareUser env request)
  · rw [added]
    exact iff_of_false (fun impossible => impossible) fun smooth => smooth.1 unread
  · rw [added]
    cases valid : stoi request.avatar with
    | none =>
      -- Nobody catches the error of the number, and the bare user is left behind.
      refine iff_of_false (fun impossible => impossible) fun smooth => ?_
      exact Bool.false_ne_true smooth.2.1
    | some avatar =>
      by_cases few : env.templates.length < 3
      · dsimp only
        rw [if_pos few]
        refine iff_of_false (fun impossible => impossible) fun smooth => ?_
        have enough := smooth.2.2.1.1
        omega
      · dsimp only
        rw [if_neg few]
        have enough : 3 ≤ env.templates.length := by omega
        have success := success_iff bare valid enough parts
        constructor
        · intro atomic
          obtain ⟨numbered, last⟩ := success.mp atomic
          exact ⟨read, rfl, ⟨enough, numbered⟩, last⟩
        · rintro ⟨-, -, ⟨-, numbered⟩, last⟩
          exact success.mpr ⟨numbered, last⟩

/--
A registration is atomic exactly when it is refused, or the bare user's file cannot be opened, or
nothing goes wrong any more once the bare user is saved.
-/
theorem atomic_iff (env : Environment) (request : Request) (world : World) :
    Atomic env request world (register env request world) ↔
      Refused env request world ∨ env.signUpSave = .notOpened ∨ Smooth env request := by
  by_cases refused : Refused env request world
  · obtain ⟨message, same⟩ := register_refused refused
    rw [same]
    exact iff_of_true rfl (.inl refused)
  · rw [or_iff_right refused, register_new refused]
    unfold save
    cases first : env.signUpSave with
    | saved =>
      rw [or_iff_right (by simp)]
      refine (atomic_saved_iff (Function.update_self ..)).trans ?_
      constructor
      · rintro ⟨parts, avatar, templates, last⟩
        exact ⟨first, parts, avatar, templates, last⟩
      · intro smooth
        exact ⟨smooth.parts, smooth.avatar, smooth.templates, smooth.last⟩
    | notOpened => exact iff_of_true rfl (.inl rfl)
    | cutShort =>
      -- An error is told, but a broken file now takes the mail address.
      refine iff_of_false (fun same => ?_) (fun other => ?_)
      · have free : world.files request.mail = none := by
          unfold Refused at refused
          rw [not_or, not_or] at refused
          exact Option.not_isSome_iff_eq_none.mp refused.2.2
        have file := congrFun (congrArg World.files same) request.mail
        rw [free] at file
        simp [bareUser] at file
      · obtain opened | smooth := other
        · cases opened
        · have saved := smooth.signUp
          rw [first] at saved
          cases saved

/-- Three templates to choose from, with nothing that goes wrong outside of the request. -/
def calm : Environment where
  templates := [1, 2, 3].map fun noun => { mNoun := noun, mName := [] }
  random := 7
  creatureParts := none
  existsError := none
  signUpSave := .saved
  finalSave := .saved

/-- An avatar that is no number stops a registration after the file of the user was made. -/
theorem not_atomic :
    ¬ ∀ (env : Environment) (request : Request) (world : World),
      Atomic env request world (register env request world) := by
  -- The request ends in an exception that nobody catches.
  intro always
  exact always calm
    { name := ascii "n", mail := ascii "m", pass := ascii "p", avatar := ascii "abc" }
    { sUsersByEmail := fun _ => none, files := fun _ => none }

end Recap.SporeNet.Registration
