import WindscribeVpn.Foundations.WriteBehind
import Mathlib.Data.Int.Notation

/-!
# `UserRepository`

The account of the signed-in user is kept in four places: the stored session, the `user` flow,
`userStatus` and `userName`. A reload that is handed a session response writes the four one after
the other, and one without a response copies the stored session into the flow. Each runs as a
coroutine of its own on the application scope, whose threads are many, and nothing orders the steps
of two of them. A logout deletes the session with up to three requests and then clears the
preferences, in one more coroutine.

The three stored places are preferences. A write of one is seen at once and committed to the data
store later (`Foundations.WriteBehind`), and `clearAllData` clears the store first and the written
values after that.

`step` is one step of one party. The state also remembers which response the account should derive
from: the last one that was handed over, or none once a logout has completed after it.
-/

set_option autoImplicit false
set_option relaxedAutoImplicit false

namespace WindscribeVpn.Repository.UserRepository

open Foundations.WriteBehind

/-! ### Users -/

/-- `UserSessionResponse`, with the fields that two users are told apart by. The stored session is
the JSON text of one, and stands here as the response it is the text of. -/
structure UserSessionResponse where
  userName : Option String
  isPremium : Option ℤ
  userAccountStatus : Option ℤ
  userEmail : Option String
  emailStatus : Option ℤ
  alcList : Option (List String)
  sipCount : Option ℤ
  deriving DecidableEq, Repr

/-- `User`. -/
structure User where
  sessionResponse : UserSessionResponse
  deriving DecidableEq, Repr

/-- `isPro`. -/
def User.isPro (user : User) : Bool := user.sessionResponse.isPremium == some 1

/-- `userName`. -/
def User.userName (user : User) : String := user.sessionResponse.userName.getD "na"

/-- What a reload stores as `userStatus`. -/
def User.status (user : User) : ℤ := if user.isPro then 1 else 0

/-! ### State -/

/-- The places a reload writes, in the order in which it writes them. -/
inductive Place
  | session
  | user
  | userStatus
  | userName
  deriving DecidableEq, Repr

/-- How many of the places are written before this one. -/
def Place.rank : Place → ℕ
  | .session => 0
  | .user => 1
  | .userStatus => 2
  | .userName => 3

/-- A coroutine of `launchReload`. It is `joined` when `reloadNow` waits for it, and is then
cancelled with its caller. -/
inductive Reload
  /-- It was handed a response, and writes this place next. -/
  | writing (response : UserSessionResponse) (next : Place) (joined : Bool)
  /-- The four places are written; `handleAmneziaAutoEnable` and the callback are left, which write
  none of them. -/
  | finishing (joined : Bool)
  /-- It was handed no response, and has not read the stored session yet. -/
  | reading (joined : Bool)
  /-- It has read the stored session, and is about to write the flow. -/
  | cached (response : UserSessionResponse)
  | finished
  deriving DecidableEq, Repr

/-- The coroutine after it has written a place. -/
def Reload.written (response : UserSessionResponse) (joined : Bool) : Place → Reload
  | .session => .writing response .user joined
  | .user => .writing response .userStatus joined
  | .userStatus => .writing response .userName joined
  | .userName => .finishing joined

/-- What the coroutine writes next, and where. -/
def Reload.writes : Reload → Option (UserSessionResponse × Place)
  | .writing response next _ => some (response, next)
  | .cached response => some (response, .user)
  | .finishing _ => none
  | .reading _ => none
  | .finished => none

/-- The coroutine has still to write a place. -/
def Reload.due : Reload → Place → Bool
  | .writing _ next _, place => decide (next.rank ≤ place.rank)
  | .reading _, place => place == .user
  | .cached _, place => place == .user
  | .finishing _, _ => false
  | .finished, _ => false

/-- The coroutine after its next write. -/
def Reload.afterWrite : Reload → Reload
  | .writing response next joined => .written response joined next
  | .cached _ => .finished
  | .finishing joined => .finishing joined
  | .reading joined => .reading joined
  | .finished => .finished

/-- How far a call of `logout` that holds `logoutMutex` has come. -/
inductive LogoutStage
  /-- The tunnel is taken down and Google is signed out of. -/
  | signingOut
  /-- So many requests to delete the session have failed. -/
  | deleting (attempts : ℕ)
  deriving DecidableEq, Repr

/-- How far a coroutine of `onSessionDeleted` has come. -/
inductive Deletion
  | launched
  /-- `clearAllData` has cleared the data store. -/
  | storeCleared
  /-- `clearAllData` has cleared the written values too. -/
  | writtenCleared
  | completed
  deriving DecidableEq, Repr

/-- `onSessionDeleted` has begun to clear the preferences, and is not through. -/
def Deletion.clears : Deletion → Bool
  | .storeCleared => true
  | .writtenCleared => true
  | .launched => false
  | .completed => false

/-- The response that the account should derive from, and the reload it was handed to. -/
structure Account where
  response : UserSessionResponse
  reload : ℕ
  deriving DecidableEq, Repr

/-- The four places, the coroutines, and the response the account should derive from. -/
structure State where
  session : Cell UserSessionResponse
  user : Option User
  userStatus : Cell ℤ
  userName : Cell String
  reloads : List Reload
  /-- The call of `logout` that holds `logoutMutex`. -/
  logout : Option LogoutStage
  deletions : List Deletion
  account : Option Account
  deriving DecidableEq, Repr

/-- The state after `init`, over the account that an earlier process has stored. -/
def State.initial (stored : Option UserSessionResponse) : State where
  session := .ofStored stored
  user := none
  userStatus := .ofStored (stored.map fun response ↦ (User.mk response).status)
  userName := .ofStored (stored.map fun response ↦ (User.mk response).userName)
  reloads := [.reading false]
  logout := none
  deletions := []
  account := stored.map fun response ↦ ⟨response, 0⟩

/-- `preferenceHelper.getSession`. -/
def getSession (s : State) : Option UserSessionResponse := s.session.read

/-- `preferenceHelper.userStatus`. -/
def userStatus (s : State) : ℤ := s.userStatus.read.getD 0

/-- `preferenceHelper.userName`. -/
def userName (s : State) : String := s.userName.read.getD "na"

/-- `loggedIn`. -/
def loggedIn (s : State) : Bool := s.user.isSome

/-! ### Steps -/

/-- Writes what a response gives for a place. -/
def State.write (s : State) (response : UserSessionResponse) : Place → State
  | .session => { s with session := s.session.set response }
  | .user => { s with user := some ⟨response⟩ }
  | .userStatus => { s with userStatus := s.userStatus.set (User.mk response).status }
  | .userName => { s with userName := s.userName.set (User.mk response).userName }

/-- Replaces a reload. -/
def State.put (s : State) (i : ℕ) (reload : Reload) : State :=
  { s with reloads := s.reloads.set i reload }

/-- Replaces a deletion. -/
def State.putDeletion (s : State) (k : ℕ) (deletion : Deletion) : State :=
  { s with deletions := s.deletions.set k deletion }

/-- The edit of `clearAllData`. -/
def State.clearStored (s : State) : State :=
  { s with
    session := s.session.clearStored
    userStatus := s.userStatus.clearStored
    userName := s.userName.clearStored }

/-- `writtenValues.clear()` of `clearAllData`. -/
def State.clearWritten (s : State) : State :=
  { s with
    session := s.session.clearWritten
    userStatus := s.userStatus.clearWritten
    userName := s.userName.clearWritten }

/-- `launchReload`: the coroutine is launched, and has done nothing yet. -/
def launchReload (s : State) (response : Option UserSessionResponse) (joined : Bool) : State :=
  match response with
  | some response =>
    { s with
      reloads := s.reloads ++ [.writing response .session joined]
      account := some ⟨response, s.reloads.length⟩ }
  | none => { s with reloads := s.reloads ++ [.reading joined] }

/-- The next step of a reload. A session that is not there cannot be parsed, and the exception is
only logged. -/
def advance (s : State) (i : ℕ) : Option State :=
  match s.reloads[i]? with
  | some (.writing response next joined) =>
    some ((s.write response next).put i (.written response joined next))
  | some (.finishing _) => some (s.put i .finished)
  | some (.reading _) =>
    match getSession s with
    | some response => some (s.put i (.cached response))
    | none => some (s.put i .finished)
  | some (.cached response) => some ((s.write response .user).put i .finished)
  | some .finished => none
  | none => none

/-- The caller of a `reloadNow` is cancelled. The coroutine notices before it has started or after
the last of its writes, since it does not suspend in between. -/
def cancel (s : State) (i : ℕ) : Option State :=
  match s.reloads[i]? with
  | some (.writing _ .session true) => some (s.put i .finished)
  | some (.finishing true) => some (s.put i .finished)
  | some (.reading true) => some (s.put i .finished)
  | _ => none

/-- `maxAttempts`. -/
def maxAttempts : ℕ := 3

/-- A request to delete the session is answered. -/
def deleteSession (s : State) (success : Bool) : Option State :=
  match s.logout with
  | some (.deleting attempts) =>
    if !success && decide (attempts + 1 < maxAttempts) then
      some { s with logout := some (.deleting (attempts + 1)) }
    else some { s with logout := none, deletions := s.deletions ++ [.launched] }
  | _ => none

/-- The next step of `onSessionDeleted`. The last one clears the tables of the database, which ends
the logout. -/
def onSessionDeleted (s : State) (k : ℕ) : Option State :=
  match s.deletions[k]? with
  | some .launched => some (s.clearStored.putDeletion k .storeCleared)
  | some .storeCleared => some (s.clearWritten.putDeletion k .writtenCleared)
  | some .writtenCleared => some ({ s with account := none }.putDeletion k .completed)
  | some .completed => none
  | none => none

/-- What one party does next. -/
inductive Action
  /-- `reload`, or `reloadNow` when it is joined. -/
  | reload (response : Option UserSessionResponse) (joined : Bool)
  | advance (i : ℕ)
  | cancel (i : ℕ)
  /-- The data store commits an edit of a place. -/
  | commit (place : Place) (n : ℕ)
  | logout
  /-- The first coroutine of `logout` ends. -/
  | signedOut
  | deleteSession (success : Bool)
  | onSessionDeleted (k : ℕ)
  deriving DecidableEq, Repr

/-- One step. -/
def step (s : State) : Action → Option State
  | .reload response joined => some (launchReload s response joined)
  | .advance i => advance s i
  | .cancel i => cancel s i
  | .commit .session n => (s.session.commit n).map fun cell ↦ { s with session := cell }
  | .commit .user _ => none
  | .commit .userStatus n => (s.userStatus.commit n).map fun cell ↦ { s with userStatus := cell }
  | .commit .userName n => (s.userName.commit n).map fun cell ↦ { s with userName := cell }
  | .logout => some (if s.logout.isSome then s else { s with logout := some .signingOut })
  | .signedOut =>
    if s.logout = some .signingOut then some { s with logout := some (.deleting 0) } else none
  | .deleteSession success => deleteSession s success
  | .onSessionDeleted k => onSessionDeleted s k

end WindscribeVpn.Repository.UserRepository
