import Recap.Lib.OrderedMap
import Recap.SporeNet.Xml

/-! The users that are logged in, the objects they have, and the files they are loaded from. -/

namespace Recap.SporeNet

open Recap.Blaze

/-- What the file of a user comes to when it is loaded, by what logging in depends on. -/
structure StoredUser where
  mPassword : Bytes
  id : Int64

namespace UserManager

/-- A user object, by what logging in depends on. -/
structure User where
  mUsername : String
  mPassword : Bytes := []
  id : Int64 := 0
  mAuthToken : Bytes := []
deriving DecidableEq

/-- A user object by its place among all that were ever made. -/
abbrev UserPtr := Nat

end UserManager

/-- The user manager, with every user object that was ever made and the storage of the users. -/
structure UserManager where
  sUsersByEmail : Std.TreeMap String UserManager.UserPtr
  objects : List UserManager.User
  files : String → Option StoredUser

namespace UserManager

def initial : UserManager where
  sUsersByEmail := {}
  objects := []
  files := fun _ => none

/-- `User::Load` into a new user. -/
def load (s : UserManager) (username : String) : Option User :=
  (s.files username).map fun stored =>
    { mUsername := username, mPassword := stored.mPassword, id := stored.id }

/-- `UserManager::Login`, with whether the user is logged in by it, and whether it was before. -/
def login (s : UserManager) (username : String) (password : Bytes) :
    (UserPtr × Bool × Bool) × UserManager :=
  match s.sUsersByEmail[username]? with
  | some user => ((user, false, true), s)
  | none =>
    let user := s.objects.length
    let record := (s.load username).getD { mUsername := username }
    let loaded := { s with objects := s.objects ++ [record] }
    if (s.load username).isSome ∧ record.mPassword = password then
      ((user, true, false),
        { loaded with sUsersByEmail := s.sUsersByEmail.insertIfNew username user })
    else ((user, false, false), loaded)

def getUserByEmail (s : UserManager) (username : String) : Option UserPtr :=
  s.sUsersByEmail[username]?

/-- The first logged in user with an authentication token. -/
def getUserByAuthToken (s : UserManager) (authToken : Bytes) : Option UserPtr :=
  (OrderedMap.first s.sUsersByEmail fun _ user =>
    s.objects[user]?.map User.mAuthToken = some authToken).map Prod.snd

def removeUser (s : UserManager) (email : String) : UserManager :=
  { s with sUsersByEmail := s.sUsersByEmail.erase email }

def setAuthToken (s : UserManager) (user : UserPtr) (authToken : Bytes) : UserManager :=
  { s with objects := s.objects.modify user fun record => { record with mAuthToken := authToken } }

/-- `User::Save`, by what is loaded again. -/
def save (s : UserManager) (user : User) : UserManager :=
  { s with
    files := Function.update s.files user.mUsername (some ⟨user.mPassword, user.id⟩) }

/-- `User::Logout`, which removes whoever is logged in under the user's name. -/
def logout (s : UserManager) (user : UserPtr) : UserManager :=
  match s.objects[user]? with
  | none => s
  | some record => (s.removeUser record.mUsername).save record

/--
A login finds a user that is logged in, or tries a new object.

The object has no token, and it is filed if it has the password.
-/
theorem login_cases (s : UserManager) (username : String) (password : Bytes) :
    (∃ user, s.sUsersByEmail[username]? = some user ∧
      s.login username password = ((user, false, true), s)) ∨
    ∃ record : User, s.sUsersByEmail[username]? = none ∧ record.mAuthToken = [] ∧
      ((record.mPassword = password ∧ s.login username password =
        ((s.objects.length, true, false), { s with
          objects := s.objects ++ [record]
          sUsersByEmail := s.sUsersByEmail.insertIfNew username s.objects.length })) ∨
      s.login username password =
        ((s.objects.length, false, false), { s with objects := s.objects ++ [record] })) := by
  unfold login
  cases found : s.sUsersByEmail[username]? with
  | some user => exact Or.inl ⟨user, rfl, rfl⟩
  | none =>
    refine Or.inr ⟨(s.load username).getD { mUsername := username }, rfl, ?_, ?_⟩
    · unfold load
      cases s.files username <;> rfl
    · -- The password is compared only if there was a file.
      by_cases right : (s.load username).isSome ∧
          ((s.load username).getD { mUsername := username }).mPassword = password
      · exact Or.inl ⟨right.2, if_pos right⟩
      · exact Or.inr (if_neg right)

/-- Whoever is found by a token has it. -/
theorem token_of_getUserByAuthToken {s : UserManager} {authToken : Bytes} {user : UserPtr}
    (found : s.getUserByAuthToken authToken = some user) :
    ∃ record, s.objects[user]? = some record ∧ record.mAuthToken = authToken := by
  -- The entry that is found first has passed the test.
  obtain ⟨⟨mail, other⟩, first, rfl⟩ := Option.map_eq_some_iff.mp found
  have passes := (OrderedMap.first_eq_some_iff.mp first).2.1
  exact Option.map_eq_some_iff.mp (of_decide_eq_true passes)

end UserManager

end Recap.SporeNet
