import Stratadiff.Coverage.Ownership

/-!
# Whom an owner stands for

The checks of a snapshot make its users and teams distinct, so its index finds every one of
them, and an owner resolves to the users whom it denotes and who may review.
-/

namespace Stratadiff.Coverage

open Ledger (toAsciiLowercase)

def GithubOwnershipSnapshot.resolve (snapshot : GithubOwnershipSnapshot)
    (identity : CodeownerIdentity) : Ownership (List Nat) := do
  (← snapshot.index).resolve identity

/-! ## What the checks leave -/

@[simp] theorem require_eq_ok {condition : Prop} [Decidable condition] {reason : String} :
    require condition reason = .ok () ↔ condition := by
  by_cases h : condition <;> simp [require, h]

def GithubOwnershipUser.key (user : GithubOwnershipUser) : String := toAsciiLowercase user.login

def GithubOwnershipTeam.key (team : GithubOwnershipTeam) : String × String :=
  (toAsciiLowercase team.organizationLogin, toAsciiLowercase team.slug)

/-- Users and teams are told apart by what they are looked up by, and a team has members of the
snapshot, each once. -/
structure GithubOwnershipSnapshot.Distinct (snapshot : GithubOwnershipSnapshot) : Prop where
  ids : (snapshot.users.map (·.id)).Nodup
  logins : (snapshot.users.map (·.key)).Nodup
  teams : (snapshot.teams.map (·.key)).Nodup
  members : ∀ team ∈ snapshot.teams, (team.members.map (·.userId)).Pairwise (· < ·)
  known : ∀ team ∈ snapshot.teams, ∀ membership ∈ team.members,
    membership.userId ∈ snapshot.users.map (·.id)

theorem validateUsers_spec {ids : List Nat} {logins : List String} {previous : Option Nat}
    {users : List GithubOwnershipUser} (h : validateUsers ids logins previous users = .ok ()) :
    (users.map (·.id)).Nodup ∧ (∀ user ∈ users, user.id ∉ ids) ∧
      (users.map (·.key)).Nodup ∧ ∀ user ∈ users, user.key ∉ logins := by
  induction users generalizing ids logins previous with
  | nil => simp
  | cons user users ih =>
      simp only [validateUsers, Result.check_bind_eq_ok, require_eq_ok] at h
      obtain ⟨_, _, freshId, freshLogin, _, rest⟩ := h
      obtain ⟨distinctIds, newIds, distinctLogins, newLogins⟩ := ih rest
      refine ⟨?_, ?_, ?_, ?_⟩
      · refine List.nodup_cons.mpr ⟨fun member => ?_, distinctIds⟩
        obtain ⟨other, there, same⟩ := List.mem_map.mp member
        exact newIds other there (by simp [same])
      · exact List.forall_mem_cons.mpr ⟨freshId, fun other there seen =>
          newIds other there (List.mem_cons_of_mem _ seen)⟩
      · refine List.nodup_cons.mpr ⟨fun member => ?_, distinctLogins⟩
        obtain ⟨other, there, same⟩ := List.mem_map.mp member
        exact newLogins other there (List.mem_cons.mpr (.inl same))
      · exact List.forall_mem_cons.mpr ⟨freshLogin, fun other there seen =>
          newLogins other there (List.mem_cons_of_mem _ seen)⟩

theorem validateMembers_spec {team : GithubOwnershipTeam} {userIds ids : List Nat}
    {previous : Option Nat} {members : List GithubTeamMembership}
    (h : validateMembers team userIds ids previous members = .ok ()) :
    (∀ id ∈ previous, ∀ membership ∈ members, id < membership.userId) ∧
      (members.map (·.userId)).Pairwise (· < ·) ∧
      ∀ membership ∈ members, membership.userId ∈ userIds := by
  induction members generalizing ids previous with
  | nil => simp
  | cons membership members ih =>
      simp only [validateMembers, Result.check_bind_eq_ok, require_eq_ok] at h
      obtain ⟨_, _, above, known, rest⟩ := h
      obtain ⟨larger, sorted, knownRest⟩ := ih rest
      have here : ∀ other ∈ members, membership.userId < other.userId := fun other there =>
        larger _ rfl other there
      refine ⟨?_, ?_, List.forall_mem_cons.mpr ⟨known, knownRest⟩⟩
      · rintro id ⟨⟩
        have first : id < membership.userId := by simpa using above
        exact List.forall_mem_cons.mpr ⟨first, fun other there => first.trans (here other there)⟩
      · refine List.pairwise_cons.mpr ⟨fun id member => ?_, sorted⟩
        obtain ⟨other, there, rfl⟩ := List.mem_map.mp member
        exact here other there

/-- The name that the checks compare determines the pair that the index uses. -/
theorem validateTeams_spec {userIds ids : List Nat} {names : List String} {previous : Option Nat}
    {memberships : Nat} {teams : List GithubOwnershipTeam}
    (h : validateTeams userIds ids names previous memberships teams = .ok ()) :
    (teams.map (·.key)).Nodup ∧ (∀ team ∈ teams, team.key.1 ++ "/" ++ team.key.2 ∉ names) ∧
      ∀ team ∈ teams, (team.members.map (·.userId)).Pairwise (· < ·) ∧
        ∀ membership ∈ team.members, membership.userId ∈ userIds := by
  induction teams generalizing ids names previous memberships with
  | nil => simp
  | cons team teams ih =>
      simp only [validateTeams, Result.check_bind_eq_ok, require_eq_ok] at h
      obtain ⟨_, _, _, _, fresh, _, _, _, _, members, rest⟩ := h
      obtain ⟨distinct, new, checked⟩ := ih rest
      obtain ⟨_, sorted, known⟩ := validateMembers_spec members
      refine ⟨?_, ?_, List.forall_mem_cons.mpr ⟨⟨sorted, known⟩, checked⟩⟩
      · refine List.nodup_cons.mpr ⟨fun member => ?_, distinct⟩
        obtain ⟨other, there, same⟩ := List.mem_map.mp member
        refine new other there (List.mem_cons.mpr (.inl ?_))
        rw [show other.key = team.key from same]
        rfl
      · exact List.forall_mem_cons.mpr ⟨fresh, fun other there seen =>
          new other there (List.mem_cons_of_mem _ seen)⟩

theorem distinct_of_validate {snapshot : GithubOwnershipSnapshot}
    (valid : snapshot.validate = .ok ()) : snapshot.Distinct := by
  simp only [GithubOwnershipSnapshot.validate, Result.bind_eq_ok] at valid
  obtain ⟨_, _, _, _, _, _, _, _, _, _, _, _, _, _, _, _, _, users, teams⟩ := valid
  obtain ⟨ids, _, logins, _⟩ := validateUsers_spec users
  obtain ⟨names, _, checked⟩ := validateTeams_spec teams
  exact ⟨ids, logins, names, fun team member => (checked team member).1,
    fun team member => (checked team member).2⟩

/-! ## Whom an owner denotes -/

/-- The users of a snapshot that an owner denotes, in any case of its letters: the user of the
login, or the active members of the team of the name, where it is a team that counts. -/
inductive Denotes (snapshot : GithubOwnershipSnapshot) (counts : GithubOwnershipTeam → Prop) :
    CodeownerIdentity → GithubOwnershipUser → Prop
  | user {login : String} {user : GithubOwnershipUser} (listed : user ∈ snapshot.users)
      (named : user.key = toAsciiLowercase login) : Denotes snapshot counts (.user login) user
  | member {organization slug : String} {team : GithubOwnershipTeam}
      {membership : GithubTeamMembership} {user : GithubOwnershipUser}
      (listed : team ∈ snapshot.teams)
      (named : team.key = (toAsciiLowercase organization, toAsciiLowercase slug))
      (counted : counts team) (inside : membership ∈ team.members)
      (active : membership.state = .active) (known : user ∈ snapshot.users)
      (same : user.id = membership.userId) : Denotes snapshot counts (.team organization slug) user

/-- A user whom an owner denotes and who may review, by id. -/
def Reviewer (snapshot : GithubOwnershipSnapshot) (counts : GithubOwnershipTeam → Prop)
    (identity : CodeownerIdentity) (id : Nat) : Prop :=
  ∃ user, Denotes snapshot counts identity user ∧
    user.repositoryPermission.permitsReview = true ∧ user.id = id

def GithubOwnershipTeam.PermitsReview (team : GithubOwnershipTeam) : Prop :=
  team.repositoryPermission.permitsReview = true

/-- A team that may be named as an owner: it permits review and everyone can see it. -/
def GithubOwnershipTeam.Visible (team : GithubOwnershipTeam) : Prop :=
  team.privacy = .closed ∧ team.PermitsReview

/-! ## The index -/

/-- An index that loses no user and no team of its snapshot. -/
structure GithubOwnershipIndex.Finds (index : GithubOwnershipIndex)
    (snapshot : GithubOwnershipSnapshot) : Prop where
  user : ∀ id user, index.user id = some user ↔ user ∈ snapshot.users ∧ user.id = id
  userByLogin : ∀ login user, index.userByLogin login = some user ↔
    user ∈ snapshot.users ∧ user.key = toAsciiLowercase login
  teamByName : ∀ organization slug team, index.teamByName organization slug = some team ↔
    team ∈ snapshot.teams ∧ team.key = (toAsciiLowercase organization, toAsciiLowercase slug)

theorem index_finds {snapshot : GithubOwnershipSnapshot} (valid : snapshot.validate = .ok ()) :
    ∃ index, snapshot.index = .ok index ∧ index.Finds snapshot := by
  have distinct := distinct_of_validate valid
  refine ⟨⟨snapshot.users, snapshot.teams⟩, ?_, ?_, ?_, ?_⟩
  · rw [GithubOwnershipSnapshot.index, valid]
    rfl
  · exact fun id user => lastWith_eq_some distinct.ids
  · exact fun login user => lastWith_eq_some distinct.logins
  · exact fun organization slug team => lastWith_eq_some distinct.teams

/-! ## Resolving -/

section

variable {snapshot : GithubOwnershipSnapshot} {index : GithubOwnershipIndex}
variable {team : GithubOwnershipTeam}

/-- The candidates of a team are some of its members, in their order. -/
theorem candidates_eq (finds : index.Finds snapshot) (team : GithubOwnershipTeam) :
    index.candidates team = ((team.members.filter fun membership =>
      membership.state = .active).filter fun membership =>
        (index.user membership.userId).any (·.repositoryPermission.permitsReview)).map
          (·.userId) := by
  rw [GithubOwnershipIndex.candidates]
  induction team.members.filter fun membership => membership.state = .active with
  | nil => rfl
  | cons membership members ih =>
      rw [List.filterMap_cons, List.filter_cons]
      cases found : index.user membership.userId with
      | none => simpa using ih
      | some user =>
          have same := ((finds.user _ _).mp found).2
          by_cases permits : user.repositoryPermission.permitsReview = true
          · simpa [permits, same] using ih
          · simpa [permits] using ih

theorem candidates_sorted (finds : index.Finds snapshot)
    (sorted : (team.members.map (·.userId)).Pairwise (· < ·)) :
    (index.candidates team).Pairwise (· < ·) := by
  rw [candidates_eq finds]
  exact sorted.sublist ((List.filter_sublist.trans List.filter_sublist).map _)

theorem mem_candidates (finds : index.Finds snapshot) {id : Nat} :
    id ∈ index.candidates team ↔ ∃ membership ∈ team.members, membership.state = .active ∧
      ∃ user ∈ snapshot.users, user.id = membership.userId ∧
        user.repositoryPermission.permitsReview = true ∧ user.id = id := by
  rw [candidates_eq finds]
  simp only [List.mem_map, List.mem_filter, decide_eq_true_eq, Option.any_eq_true, finds.user]
  constructor
  · rintro ⟨membership, ⟨⟨inside, active⟩, user, ⟨known, same⟩, permits⟩, rfl⟩
    exact ⟨membership, inside, active, user, known, same, permits, same⟩
  · rintro ⟨membership, inside, active, user, known, same, permits, rfl⟩
    exact ⟨membership, ⟨⟨inside, active⟩, user, ⟨known, same⟩, permits⟩, same.symm⟩

theorem reviewer_user (finds : index.Finds snapshot) {counts : GithubOwnershipTeam → Prop}
    {login : String} {id : Nat} :
    Reviewer snapshot counts (.user login) id ↔ ∃ user, index.userByLogin login = some user ∧
      user.repositoryPermission.permitsReview = true ∧ user.id = id := by
  simp only [Reviewer, finds.userByLogin]
  constructor
  · rintro ⟨user, ⟨listed, named⟩, permits, same⟩
    exact ⟨user, ⟨listed, named⟩, permits, same⟩
  · rintro ⟨user, ⟨listed, named⟩, permits, same⟩
    exact ⟨user, .user listed named, permits, same⟩

theorem reviewer_team (finds : index.Finds snapshot) {counts : GithubOwnershipTeam → Prop}
    {organization slug : String} {id : Nat} :
    Reviewer snapshot counts (.team organization slug) id ↔
      ∃ team, index.teamByName organization slug = some team ∧ counts team ∧
        id ∈ index.candidates team := by
  simp only [Reviewer, finds.teamByName, mem_candidates finds]
  constructor
  · rintro ⟨user, denotes, permits, rfl⟩
    cases denotes with
    | member listed named counted inside active known same =>
        exact ⟨_, ⟨listed, named⟩, counted, _, inside, active, user, known, same, permits, rfl⟩
  · rintro ⟨team, ⟨listed, named⟩, counted, membership, inside, active, user, known, same, permits,
      rfl⟩
    exact ⟨user, .member listed named counted inside active known same, permits, rfl⟩

theorem not_reviewer_email {counts : GithubOwnershipTeam → Prop} {address : String} {id : Nat} :
    ¬ Reviewer snapshot counts (.email address) id := by
  rintro ⟨user, denotes, -⟩
  cases denotes

/-- What resolving an owner means for the ids it may give. -/
def Answers (answer : Ownership (List Nat)) (reviewer : Nat → Prop) : Prop :=
  (∀ ids, answer = .ok ids → ids.Pairwise (· < ·) ∧ ∀ id, id ∈ ids ↔ reviewer id) ∧
    ((∃ id, reviewer id) ↔ ∃ ids, answer = .ok ids)

theorem Answers.refused {blocker : OwnershipBlocker} {reviewer : Nat → Prop}
    (nobody : ∀ id, ¬ reviewer id) : Answers (.error blocker) reviewer :=
  ⟨nofun, iff_of_false (fun ⟨id, found⟩ => nobody id found) nofun⟩

theorem Answers.given {ids : List Nat} {reviewer : Nat → Prop} (nonempty : ids ≠ [])
    (sorted : ids.Pairwise (· < ·)) (exactly : ∀ id, id ∈ ids ↔ reviewer id) :
    Answers (.ok ids) reviewer := by
  obtain ⟨id, member⟩ := List.exists_mem_of_ne_nil ids nonempty
  refine ⟨?_, iff_of_true ⟨id, (exactly id).mp member⟩ ⟨ids, rfl⟩⟩
  rintro _ ⟨⟩
  exact ⟨sorted, exactly⟩

theorem resolve_user (finds : index.Finds snapshot) (login : String) :
    Answers (index.resolve (.user login))
      (Reviewer snapshot GithubOwnershipTeam.Visible (.user login)) := by
  rw [GithubOwnershipIndex.resolve]
  split
  · next absent =>
    refine .refused fun id reviewer => ?_
    obtain ⟨user, found, _⟩ := (reviewer_user finds).mp reviewer
    cases absent.symm.trans found
  · next user found =>
    split
    · next permits =>
      refine .given (List.cons_ne_nil _ _) (List.pairwise_singleton _ _) fun id => ?_
      rw [List.mem_singleton, reviewer_user finds]
      constructor
      · rintro rfl
        exact ⟨user, found, permits, rfl⟩
      · rintro ⟨other, there, _, rfl⟩
        cases found.symm.trans there
        rfl
    · next refused =>
      refine .refused fun id reviewer => ?_
      obtain ⟨other, there, permits, _⟩ := (reviewer_user finds).mp reviewer
      cases found.symm.trans there
      exact refused permits

theorem resolve_team (finds : index.Finds snapshot) (distinct : snapshot.Distinct)
    (organization slug : String) :
    Answers (index.resolve (.team organization slug))
      (Reviewer snapshot GithubOwnershipTeam.Visible (.team organization slug)) := by
  rw [GithubOwnershipIndex.resolve]
  split
  · next absent =>
    refine .refused fun id reviewer => ?_
    obtain ⟨team, found, _⟩ := (reviewer_team finds).mp reviewer
    cases absent.symm.trans found
  · next team found =>
    have unique {id : Nat} : Reviewer snapshot GithubOwnershipTeam.Visible
        (.team organization slug) id ↔ team.Visible ∧ id ∈ index.candidates team := by
      rw [reviewer_team finds]
      constructor
      · rintro ⟨other, there, visible, candidate⟩
        cases found.symm.trans there
        exact ⟨visible, candidate⟩
      · exact fun ⟨visible, candidate⟩ => ⟨team, found, visible, candidate⟩
    split
    · next secret => exact .refused fun id reviewer => secret (unique.mp reviewer).1.1
    · next closed =>
      split
      · next refused =>
        refine .refused fun id reviewer => ?_
        have permits : team.repositoryPermission.permitsReview = true := (unique.mp reviewer).1.2
        simp [permits] at refused
      · next permits =>
        split
        · next empty =>
          refine .refused fun id reviewer => ?_
          have candidate := (unique.mp reviewer).2
          rw [empty] at candidate
          exact List.not_mem_nil candidate
        · next nonempty =>
          have listed := ((finds.teamByName _ _ _).mp found).1
          have visible : team.Visible :=
            ⟨not_not.mp closed, by simpa [GithubOwnershipTeam.PermitsReview] using permits⟩
          refine .given nonempty (candidates_sorted finds (distinct.members team listed))
            fun id => ?_
          rw [unique]
          exact ⟨fun candidate => ⟨visible, candidate⟩, fun ⟨_, candidate⟩ => candidate⟩

end

/-- The index of a snapshot that passes its checks finds every user and every team, and an owner
resolves to the users it denotes who may review, in the order of their ids. It is refused when
there is none. -/
theorem resolve_exact (snapshot : GithubOwnershipSnapshot) (valid : snapshot.validate = .ok ()) :
    (∃ index, snapshot.index = .ok index ∧ index.Finds snapshot) ∧
      ∀ identity, Answers (snapshot.resolve identity)
        (Reviewer snapshot GithubOwnershipTeam.Visible identity) := by
  obtain ⟨index, indexed, finds⟩ := index_finds valid
  refine ⟨⟨index, indexed, finds⟩, fun identity => ?_⟩
  rw [GithubOwnershipSnapshot.resolve, indexed, Result.ok_bind]
  cases identity with
  | user login => exact resolve_user finds login
  | team organization slug => exact resolve_team finds (distinct_of_validate valid) _ _
  | email address => exact .refused fun id => not_reviewer_email

/-- Two users, and a team of both that permits review. -/
def teamSnapshot (privacy : GithubTeamPrivacy) : GithubOwnershipSnapshot where
  schema := githubOwnershipSnapshotSchema
  providerUrl := "https://github.com"
  repositoryId := 1
  baseCommit := "0123456789abcdef0123456789abcdef01234567"
  apiVersion := "2022-11-28"
  observedAt := "2026-01-02T03:04:05Z"
  users := [⟨1, "Ada", .write⟩, ⟨2, "Bob", .read⟩]
  teams := [⟨7, "Acme", "Web", privacy, .maintain,
    [⟨1, .active, false⟩, ⟨2, .active, false⟩]⟩]

theorem teamSnapshot_valid (privacy : GithubTeamPrivacy) :
    (teamSnapshot privacy).validate = .ok () := by
  cases privacy <;> decide +kernel

theorem resolve_exact_sample :
    (teamSnapshot .closed).validate = .ok () ∧
      (teamSnapshot .closed).resolve (.team "ACME" "web") = .ok [1] ∧
      ∀ id, id ∈ [1] ↔ Reviewer (teamSnapshot .closed) GithubOwnershipTeam.Visible
        (.team "ACME" "web") id := by
  have valid := teamSnapshot_valid .closed
  have resolved : (teamSnapshot .closed).resolve (.team "ACME" "web") = .ok [1] := by
    decide +kernel
  exact ⟨valid, resolved, (((resolve_exact _ valid).2 _).1 _ resolved).2⟩

/-- A secret team is no owner, whatever its permission: its members are not resolved. -/
theorem secret_team_refused :
    (teamSnapshot .secret).validate = .ok () ∧
      Reviewer (teamSnapshot .secret) GithubOwnershipTeam.PermitsReview (.team "Acme" "Web") 1 ∧
      (teamSnapshot .secret).resolve (.team "Acme" "Web") =
        .error (.teamNotVisible "Acme" "Web") := by
  refine ⟨teamSnapshot_valid .secret, ⟨⟨1, "Ada", .write⟩, ?_, rfl, rfl⟩, by decide +kernel⟩
  exact .member List.mem_cons_self rfl rfl List.mem_cons_self rfl List.mem_cons_self rfl

end Stratadiff.Coverage
