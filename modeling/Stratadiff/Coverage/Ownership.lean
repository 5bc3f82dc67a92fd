import Stratadiff.Ledger.Model
import Stratadiff.Lib.Keyed

/-!
# Who may review

`ownership.rs`: the users and teams of a repository at a base commit, with their
permissions, and the reviewers a code owner stands for. The winning rule of CODEOWNERS
for a path comes from outside.
-/

namespace Stratadiff.Coverage

open Ledger (toAsciiLowercase trim isAsciiDigit validGithubTimestamp)

inductive CodeownerIdentity where
  | user (login : String)
  | team (organization slug : String)
  | email (address : String)
  deriving DecidableEq, Repr

def CodeownerIdentity.text : CodeownerIdentity → String
  | user login => "@" ++ login
  | team organization slug => "@" ++ organization ++ "/" ++ slug
  | email address => address

inductive RepositoryPermission where
  | read
  | triage
  | write
  | maintain
  | admin
  deriving DecidableEq, Repr

def RepositoryPermission.rank : RepositoryPermission → Nat
  | read => 0
  | triage => 1
  | write => 2
  | maintain => 3
  | admin => 4

def RepositoryPermission.text : RepositoryPermission → String
  | read => "Read"
  | triage => "Triage"
  | write => "Write"
  | maintain => "Maintain"
  | admin => "Admin"

def RepositoryPermission.permitsReview (permission : RepositoryPermission) : Bool :=
  RepositoryPermission.write.rank ≤ permission.rank

inductive GithubTeamPrivacy where
  | closed
  | secret
  deriving DecidableEq, Repr

inductive GithubMembershipState where
  | active
  | pending
  deriving DecidableEq, Repr

structure GithubOwnershipUser where
  id : Nat
  login : String
  repositoryPermission : RepositoryPermission
  deriving DecidableEq, Repr

structure GithubTeamMembership where
  userId : Nat
  state : GithubMembershipState
  inherited : Bool
  deriving DecidableEq, Repr

structure GithubOwnershipTeam where
  id : Nat
  organizationLogin : String
  slug : String
  privacy : GithubTeamPrivacy
  repositoryPermission : RepositoryPermission
  members : List GithubTeamMembership
  deriving DecidableEq, Repr

structure GithubOwnershipSnapshot where
  schema : String
  providerUrl : String
  repositoryId : Nat
  baseCommit : String
  apiVersion : String
  observedAt : String
  users : List GithubOwnershipUser
  teams : List GithubOwnershipTeam
  deriving DecidableEq, Repr

inductive OwnershipBlocker where
  | invalidSnapshot (reason : String)
  | emailCodeownerUnsupported (address : String)
  | userNotFound (login : String)
  | teamNotFound (organization slug : String)
  | insufficientRepositoryPermission (identity : CodeownerIdentity)
      (permission : RepositoryPermission)
  | teamNotVisible (organization slug : String)
  | noEligibleTeamMembers (organization slug : String)
  deriving DecidableEq, Repr

def OwnershipBlocker.text : OwnershipBlocker → String
  | invalidSnapshot reason => "invalid GitHub ownership snapshot: " ++ reason
  | emailCodeownerUnsupported address => "email CODEOWNER " ++ address ++
      " cannot be resolved to a stable GitHub reviewer identity"
  | userNotFound login => "GitHub CODEOWNER user @" ++ login ++ " is missing from the snapshot"
  | teamNotFound organization slug => "GitHub CODEOWNER team @" ++ organization ++ "/" ++ slug ++
      " is missing from the snapshot"
  | insufficientRepositoryPermission identity permission => "GitHub CODEOWNER " ++ identity.text ++
      " has " ++ permission.text ++ " repository permission; write or greater is required"
  | teamNotVisible organization slug => "GitHub CODEOWNER team @" ++ organization ++ "/" ++ slug ++
      " is secret and cannot be resolved as a visible CODEOWNERS team"
  | noEligibleTeamMembers organization slug => "GitHub CODEOWNER team @" ++ organization ++ "/" ++
      slug ++ " has no active member with write or greater repository permission"

def githubOwnershipSnapshotSchema : String :=
  "https://raw.githubusercontent.com/gcomfident-crypto/stratadiff/main/schema/" ++
    "github-ownership-snapshot-v1.schema.json"
def maxOwnershipUsers : Nat := 10000
def maxOwnershipTeams : Nat := 2000
def maxTeamMembers : Nat := 10000
def maxTotalTeamMemberships : Nat := 100000
def maxProviderUrlBytes : Nat := 2048
def maxIdentityBytes : Nat := 100

/-! ## A snapshot is checked -/

abbrev Ownership (α : Type) := Except OwnershipBlocker α

def require (condition : Prop) [Decidable condition] (reason : String) : Ownership Unit :=
  if condition then .ok () else .error (.invalidSnapshot reason)

/-- `u8::is_ascii_whitespace`. -/
def isAsciiWhitespaceByte (byte : UInt8) : Bool :=
  byte = 9 || byte = 10 || byte = 12 || byte = 13 || byte = 32

/-- `is_object_id`: a lowercase SHA-1 or SHA-256. -/
def isLowerObjectId (value : String) : Bool :=
  let bytes := utf8Bytes value
  (bytes.length = 40 || bytes.length = 64) &&
    bytes.all fun byte => isAsciiDigit byte || (97 ≤ byte && byte ≤ 102)

def validDate (value : String) : Bool :=
  let bytes := utf8Bytes value
  bytes.length = 10 && bytes.zipIdx.all fun (byte, index) =>
    if index = 4 || index = 7 then byte = 45 else isAsciiDigit byte

def githubProviderHostname (value : String) : Ownership Bytes := do
  let bytes := utf8Bytes value
  require (bytes ≠ [] ∧ bytes.length ≤ maxProviderUrlBytes)
    "provider_url is empty or exceeds its byte limit"
  let scheme := utf8Bytes "https://"
  require (scheme.isPrefixOf bytes = true) "provider_url must be a canonical HTTPS origin"
  let authority := bytes.drop scheme.length
  require (authority ≠ [] ∧ authority.all (fun byte => !(isAsciiWhitespaceByte byte ||
      byte = 47 || byte = 63 || byte = 35 || byte = 64)) = true)
    "provider_url must be a canonical HTTPS origin without credentials, path, query, or fragment"
  require (bytes.all (fun byte => !(65 ≤ byte && byte ≤ 90)) = true)
    "provider_url must be lowercase for deterministic provider binding"
  return authority

def validateIdentityComponent (value label : String) : Ownership Unit :=
  let bytes := utf8Bytes value
  require (bytes ≠ [] ∧ bytes.length ≤ maxIdentityBytes ∧ trim value = value ∧
      bytes.all (fun byte => 32 < byte && byte < 127 && !(byte = 64 || byte = 47)) = true)
    (label ++ " is empty, malformed, or exceeds its byte limit")

def validateUsers : List Nat → List String → Option Nat → List GithubOwnershipUser → Ownership Unit
  | _, _, _, [] => .ok ()
  | ids, logins, previous, user :: users => do
      require (user.id ≠ 0) "user id must be nonzero"
      validateIdentityComponent user.login "user login"
      require (user.id ∉ ids) ("duplicate user id " ++ toString user.id)
      require (toAsciiLowercase user.login ∉ logins) ("duplicate user login " ++ user.login)
      require (previous.all (· < user.id) = true) "users must be strictly sorted by stable id"
      validateUsers (user.id :: ids) (toAsciiLowercase user.login :: logins) (some user.id) users

def GithubOwnershipTeam.name (team : GithubOwnershipTeam) : String :=
  team.organizationLogin ++ "/" ++ team.slug

def validateMembers (team : GithubOwnershipTeam) (userIds : List Nat) :
    List Nat → Option Nat → List GithubTeamMembership → Ownership Unit
  | _, _, [] => .ok ()
  | ids, previous, member :: members => do
      require (member.userId ≠ 0) "team member user_id must be nonzero"
      require (member.userId ∉ ids)
        ("duplicate member " ++ toString member.userId ++ " in team " ++ team.name)
      require (previous.all (· < member.userId) = true)
        ("members of team " ++ team.name ++ " must be strictly sorted by stable user id")
      require (member.userId ∈ userIds)
        ("team " ++ team.name ++ " references missing user id " ++ toString member.userId)
      validateMembers team userIds (member.userId :: ids) (some member.userId) members

def validateTeams (userIds : List Nat) :
    List Nat → List String → Option Nat → Nat → List GithubOwnershipTeam → Ownership Unit
  | _, _, _, _, [] => .ok ()
  | ids, names, previous, memberships, team :: teams => do
      require (team.id ≠ 0) "team id must be nonzero"
      validateIdentityComponent team.organizationLogin "team organization login"
      validateIdentityComponent team.slug "team slug"
      require (team.id ∉ ids) ("duplicate team id " ++ toString team.id)
      let name := toAsciiLowercase team.organizationLogin ++ "/" ++ toAsciiLowercase team.slug
      require (name ∉ names) ("duplicate team identity " ++ team.name)
      require (previous.all (· < team.id) = true) "teams must be strictly sorted by stable id"
      require (team.members.length ≤ maxTeamMembers)
        ("team " ++ toString team.id ++ " member count limit exceeded: observed " ++
          toString team.members.length ++ ", limit 10000")
      let memberships := memberships + team.members.length
      require (memberships ≤ usizeMax) "total team membership count overflow"
      require (memberships ≤ maxTotalTeamMemberships)
        ("total team membership count limit exceeded: observed " ++ toString memberships ++
          ", limit 100000")
      validateMembers team userIds [] none team.members
      validateTeams userIds (team.id :: ids) (name :: names) (some team.id) memberships teams

def GithubOwnershipSnapshot.validate (snapshot : GithubOwnershipSnapshot) : Ownership Unit := do
  require (snapshot.schema = githubOwnershipSnapshotSchema) "unsupported schema"
  let _ ← githubProviderHostname snapshot.providerUrl
  require (snapshot.repositoryId ≠ 0) "repository_id must be nonzero"
  require (isLowerObjectId snapshot.baseCommit) "base_commit must be a full lowercase Git object ID"
  require (validDate snapshot.apiVersion) "api_version must use YYYY-MM-DD"
  require (validGithubTimestamp snapshot.observedAt)
    "observed_at must use UTC YYYY-MM-DDTHH:MM:SSZ"
  require (snapshot.users.length ≤ maxOwnershipUsers)
    ("user count limit exceeded: observed " ++ toString snapshot.users.length ++ ", limit 10000")
  require (snapshot.teams.length ≤ maxOwnershipTeams)
    ("team count limit exceeded: observed " ++ toString snapshot.teams.length ++ ", limit 2000")
  validateUsers [] [] none snapshot.users
  validateTeams (snapshot.users.map (·.id)) [] [] none 0 snapshot.teams

/-! ## Reviewers -/

/-- Collecting pairs into a map keeps the last of a key. -/
def lastWith {α κ : Type} [DecidableEq κ] (key : α → κ) (xs : List α) (k : κ) : Option α :=
  xs.reverse.find? fun x => key x = k

/-- Under distinct keys no pair takes the place of another. -/
theorem lastWith_eq_some {α κ : Type} [DecidableEq κ] {key : α → κ} {xs : List α} {k : κ} {x : α}
    (nodup : (xs.map key).Nodup) : lastWith key xs k = some x ↔ x ∈ xs ∧ key x = k := by
  constructor
  · intro found
    have same := List.find?_some (show xs.reverse.find? (fun x => key x = k) = some x from found)
    exact ⟨List.mem_reverse.mp (List.mem_of_find?_eq_some found), of_decide_eq_true same⟩
  · rintro ⟨member, same⟩
    refine Keyed.find?_eq_some ?_ (List.mem_reverse.mpr member) same
    rw [List.map_reverse]
    exact List.nodup_reverse.mpr nodup

structure GithubOwnershipIndex where
  users : List GithubOwnershipUser
  teams : List GithubOwnershipTeam
  deriving DecidableEq, Repr

def GithubOwnershipSnapshot.index (snapshot : GithubOwnershipSnapshot) :
    Ownership GithubOwnershipIndex := do
  snapshot.validate
  return ⟨snapshot.users, snapshot.teams⟩

namespace GithubOwnershipIndex

def user (index : GithubOwnershipIndex) (id : Nat) : Option GithubOwnershipUser :=
  lastWith (·.id) index.users id

def userByLogin (index : GithubOwnershipIndex) (login : String) : Option GithubOwnershipUser :=
  lastWith (fun user => toAsciiLowercase user.login) index.users (toAsciiLowercase login)

def teamByName (index : GithubOwnershipIndex) (organization slug : String) :
    Option GithubOwnershipTeam :=
  lastWith (fun team => (toAsciiLowercase team.organizationLogin, toAsciiLowercase team.slug))
    index.teams (toAsciiLowercase organization, toAsciiLowercase slug)

/-- The active members of a team that may review. -/
def candidates (index : GithubOwnershipIndex) (team : GithubOwnershipTeam) : List Nat :=
  ((team.members.filter fun member => member.state = .active).filterMap fun member =>
    index.user member.userId).filter (·.repositoryPermission.permitsReview) |>.map (·.id)

def resolve (index : GithubOwnershipIndex) (identity : CodeownerIdentity) :
    Ownership (List Nat) :=
  match identity with
  | .email address => .error (.emailCodeownerUnsupported address)
  | .user login =>
      match index.userByLogin login with
      | none => .error (.userNotFound login)
      | some user =>
          if user.repositoryPermission.permitsReview then .ok [user.id]
          else .error (.insufficientRepositoryPermission identity user.repositoryPermission)
  | .team organization slug =>
      match index.teamByName organization slug with
      | none => .error (.teamNotFound organization slug)
      | some team =>
          if team.privacy ≠ .closed then .error (.teamNotVisible organization slug)
          else if !team.repositoryPermission.permitsReview then
            .error (.insufficientRepositoryPermission identity team.repositoryPermission)
          else if index.candidates team = [] then .error (.noEligibleTeamMembers organization slug)
          else .ok (index.candidates team)

end GithubOwnershipIndex

/-! ## CODEOWNERS -/

structure CodeownersSource where
  baseCommit : String
  path : String
  blobOid : String
  byteLen : Nat
  blake3 : String
  deriving DecidableEq, Repr

structure CodeownerRuleMatch where
  line : Nat
  pattern : String
  ownerAlternatives : List CodeownerIdentity
  deriving DecidableEq, Repr

/-- A parsed CODEOWNERS file: of each path the last rule that matches, or why the path is
refused. -/
structure CodeownersPolicy where
  source : CodeownersSource
  ruleFor : String → Except String (Option CodeownerRuleMatch)

def CodeownersPolicy.resolveUtf8Path (policy : CodeownersPolicy) (path : String) :
    Except String (Option CodeownerRuleMatch) := policy.ruleFor path

def CodeownersPolicy.matchingOwnerCount (policy : CodeownersPolicy) (path : String) :
    Except String (Option Nat) := do
  return (← policy.ruleFor path).map (·.ownerAlternatives.length)

end Stratadiff.Coverage
