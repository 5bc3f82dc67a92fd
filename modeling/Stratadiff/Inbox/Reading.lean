import Stratadiff.Inbox.Collect

/-!
# Readings of the review inbox

What a run of the collection was answered: a snapshot is read when every page of its reviews was
answered, each at the cursor of the page before it, up to the page that has none after it.
-/

namespace Stratadiff.ReviewInbox

open Program (Exchange)
open Session (check)

/-- A query was answered with this data. -/
def Answered (calls : List (Exchange github)) (query : Query) (data : query.Data) : Prop :=
  ∃ size, (⟨.graphql query, .ok ⟨size, .ok ⟨some data, none⟩⟩⟩ : Exchange github) ∈ calls

theorem Answered.mono {calls calls' : List (Exchange github)} {query : Query} {data : query.Data}
    (answered : Answered calls query data) (more : calls ⊆ calls') :
    Answered calls' query data := by
  obtain ⟨size, member⟩ := answered
  exact ⟨size, more member⟩

/-- The pages from one on, the reviews that they hold after it, and how many follow. -/
inductive Pages (calls : List (Exchange github)) (owner name reviewer : String)
    (expected : PullRequestBody) : PageInfo → List ReviewRecord → Nat → Prop where
  | last {pageInfo : PageInfo} (terminal : pageInfo.hasNextPage = false) :
      Pages calls owner name reviewer expected pageInfo [] 0
  | next {pageInfo : PageInfo} {cursor : String} {data : RevalidateData}
      {repository : RepositoryWithPullRequest} {observed : PullRequestBody}
      {reviews : List ReviewRecord} {pages : Nat} (advances : pageInfo.hasNextPage = true)
      (there : pageInfo.endCursor = some cursor)
      (answered : Answered calls (.reviewPage owner name reviewer cursor expected.number) data)
      (found : data.repository = some repository) (page : repository.pullRequest = some observed)
      (same : { observed with reviews := expected.reviews } = expected)
      (count : observed.reviews.totalCount = expected.reviews.totalCount)
      (rest : Pages calls owner name reviewer expected observed.reviews.pageInfo reviews pages) :
      Pages calls owner name reviewer expected pageInfo (observed.reviews.nodes ++ reviews)
        (pages + 1)

theorem Pages.mono {calls calls' : List (Exchange github)} {owner name reviewer : String}
    {expected : PullRequestBody} {pageInfo : PageInfo} {reviews : List ReviewRecord} {pages : Nat}
    (read : Pages calls owner name reviewer expected pageInfo reviews pages)
    (more : calls ⊆ calls') : Pages calls' owner name reviewer expected pageInfo reviews pages := by
  induction read with
  | last terminal => exact .last terminal
  | next advances there answered found page same count _ ih =>
      exact .next advances there (answered.mono more) found page same count ih

/-- Every page of a snapshot was read, and its reviews are those of the reviewer. -/
structure Complete (calls : List (Exchange github)) (reviewer : ReviewerIdentity)
    (snapshot : CandidateSnapshot) : Prop where
  pages : ∃ owner name reviews pages,
    splitRepository snapshot.pullRequest.repository.nameWithOwner = .ok (owner, name) ∧
      Pages calls owner name reviewer.login snapshot.pullRequest.toPullRequestBody
        snapshot.pullRequest.reviews.pageInfo reviews pages ∧
      snapshot.reviews = snapshot.pullRequest.reviews.nodes ++ reviews ∧
      snapshot.reviewPagesObserved = 1 + pages
  reviews : validateCompleteReviews snapshot.reviews snapshot.pullRequest.reviews.totalCount
    reviewer = .ok ()

/-- A snapshot that the search offered, read to its end. -/
structure FirstReading (calls : List (Exchange github)) (reviewer : ReviewerIdentity)
    (snapshot : CandidateSnapshot) : Prop where
  offered : ∃ searchQuery limit data,
    Answered calls (.search searchQuery reviewer.login limit) data ∧
      some snapshot.pullRequest ∈ data.search.nodes
  complete : Complete calls reviewer snapshot

/-- A snapshot that was asked for by its number, read to its end. -/
structure SecondReading (calls : List (Exchange github)) (reviewer : ReviewerIdentity)
    (snapshot : CandidateSnapshot) : Prop where
  offered : ∃ owner name data repository,
    Answered calls (.revalidate owner name reviewer.login snapshot.pullRequest.number) data ∧
      data.repository = some repository ∧
      repository.toRepositoryRecord = snapshot.pullRequest.repository ∧
      repository.pullRequest = some snapshot.pullRequest.toPullRequestBody
  complete : Complete calls reviewer snapshot

section

variable {calls calls' : List (Exchange github)} {reviewer : ReviewerIdentity}
variable {snapshot : CandidateSnapshot}

theorem Complete.mono (complete : Complete calls reviewer snapshot) (more : calls ⊆ calls') :
    Complete calls' reviewer snapshot := by
  obtain ⟨⟨owner, name, reviews, pages, split, read, same, count⟩, valid⟩ := complete
  exact ⟨⟨owner, name, reviews, pages, split, read.mono more, same, count⟩, valid⟩

theorem FirstReading.mono (read : FirstReading calls reviewer snapshot) (more : calls ⊆ calls') :
    FirstReading calls' reviewer snapshot := by
  obtain ⟨⟨searchQuery, limit, data, answered, found⟩, complete⟩ := read
  exact ⟨⟨searchQuery, limit, data, answered.mono more, found⟩, complete.mono more⟩

theorem SecondReading.mono (read : SecondReading calls reviewer snapshot) (more : calls ⊆ calls') :
    SecondReading calls' reviewer snapshot := by
  obtain ⟨⟨owner, name, data, repository, answered, found, same, there⟩, complete⟩ := read
  exact ⟨⟨owner, name, data, repository, answered.mono more, found, same, there⟩,
    complete.mono more⟩

end

/-! ## Runs -/

section

variable {client client' : GhClient} {calls : List (Exchange github)}

theorem call_returns {api : Api} {body : Except String api.Reply}
    (returned : (call api).Returns client calls body client') :
    ∃ size, calls = [⟨api, .ok ⟨size, body⟩⟩] ∧ client'.hostname = client.hostname := by
  rw [call, Session.returns_get_bind, Session.returns_ensure_bind] at returned
  obtain ⟨_, returned⟩ := returned
  rw [Session.returns_ensure_bind, Session.returns_bind] at returned
  obtain ⟨_, output, _, _, rest, rfl, asked, returned⟩ := returned
  obtain ⟨rfl, rfl⟩ := Session.returns_request.mp asked
  rw [Session.returns_set_bind, Session.returns_ensure_bind, Session.returns_pure] at returned
  obtain ⟨_, rfl, rfl, rfl⟩ := returned
  exact ⟨output.size, rfl, rfl⟩

theorem graphql_returns {query : Query} {label : String} {data : query.Data}
    (returned : (graphql query label).Returns client calls data client') :
    Answered calls query data ∧ client'.hostname = client.hostname := by
  rw [graphql, Session.returns_bind] at returned
  obtain ⟨body, _, _, _, rfl, called, returned⟩ := returned
  obtain ⟨size, rfl, host⟩ := call_returns called
  rw [Session.returns_check_bind] at returned
  obtain ⟨envelope, read, returned⟩ := returned
  obtain ⟨payload, rfl, rfl⟩ := Session.returns_check.mp returned
  refine ⟨⟨size, ?_⟩, host⟩
  obtain ⟨found, errors⟩ := envelope
  unfold GraphqlEnvelope.payload at payload
  cases errors with
  | some errors => cases payload
  | none =>
      obtain rfl := Result.ofOption_eq_ok.mp payload
      cases body with
      | error failure => cases read
      | ok envelope =>
          obtain rfl := Except.ok.inj read
          exact List.mem_singleton_self _

theorem observeRateLimit_returns {rateLimit : RateLimit}
    (observed : (observeRateLimit rateLimit).Returns client calls () client') :
    calls = [] ∧ client'.hostname = client.hostname := by
  rw [observeRateLimit, Session.returns_ensure_bind, Session.returns_ensure_bind,
    Session.returns_get_bind, Session.returns_set] at observed
  obtain ⟨_, _, rfl, rfl⟩ := observed
  exact ⟨rfl, rfl⟩

theorem observeReviewNodes_returns {count : Nat}
    (observed : (observeReviewNodes count).Returns client calls () client') :
    calls = [] ∧ client'.hostname = client.hostname := by
  rw [observeReviewNodes, Session.returns_get_bind, Session.returns_set_bind,
    Session.returns_check] at observed
  obtain ⟨_, rfl, rfl⟩ := observed
  exact ⟨rfl, rfl⟩

/-- A page that is read is one of the same pull request. -/
theorem reviewPage_returns {owner name : String} {repository : RepositoryRecord}
    {expected observed : PullRequestBody} {actor : ActorIdentity} {reviewer cursor : String}
    (returned : (reviewPage owner name repository expected actor reviewer cursor).Returns client
      calls observed client') :
    (∃ data found, Answered calls (.reviewPage owner name reviewer cursor expected.number) data ∧
      data.repository = some found ∧ found.pullRequest = some observed) ∧
      { observed with reviews := expected.reviews } = expected ∧
      observed.reviews.totalCount = expected.reviews.totalCount ∧
      client'.hostname = client.hostname := by
  rw [reviewPage, Session.returns_bind] at returned
  obtain ⟨data, _, first, _, rfl, asked, returned⟩ := returned
  obtain ⟨answered, host⟩ := graphql_returns asked
  rw [Session.returns_check_bind] at returned
  obtain ⟨_, _, returned⟩ := returned
  rw [Session.returns_bind] at returned
  obtain ⟨_, _, _, second, rfl, limited, returned⟩ := returned
  obtain ⟨rfl, host'⟩ := observeRateLimit_returns limited
  rw [Session.returns_check_bind] at returned
  obtain ⟨found, there, returned⟩ := returned
  rw [Session.returns_check_bind] at returned
  obtain ⟨_, _, returned⟩ := returned
  rw [Session.returns_check_bind] at returned
  obtain ⟨body, page, returned⟩ := returned
  rw [Session.returns_check_bind] at returned
  obtain ⟨_, matched, returned⟩ := returned
  rw [Session.returns_ensure_bind, Session.returns_pure] at returned
  obtain ⟨count, rfl, rfl, rfl⟩ := returned
  rw [Result.ofOption_eq_ok] at there page
  rw [ensurePullRequestBodyMatches, Result.ensure_eq_ok] at matched
  refine ⟨⟨data, found, answered.mono (List.subset_append_left _ _), there, page⟩, ?_, count,
    host'.trans host⟩
  obtain ⟨id, number, state, url, draft, updated, base, head, all, requests⟩ := matched
  cases body
  cases expected
  simp_all

/-- The loop over the pages reads them to their end. -/
theorem reviewPages_returns {owner name : String} {repository : RepositoryRecord}
    {expected : PullRequestBody} {actor : ActorIdentity} {reviewer : String} {pageInfo : PageInfo}
    {reviews all : List ReviewRecord} {observed pages : Nat}
    (returned : (reviewPages owner name repository expected actor reviewer pageInfo reviews
      observed).Returns client calls (all, pages) client') :
    (∃ more count, all = reviews ++ more ∧ pages = observed + count ∧
      Pages calls owner name reviewer expected pageInfo more count) ∧
      client'.hostname = client.hostname := by
  induction pageInfo, reviews, observed using reviewPages.induct generalizing client calls with
  | case1 pageInfo reviews observed advances ih =>
      rw [reviewPages, if_pos advances, Session.returns_check_bind] at returned
      obtain ⟨cursor, there, returned⟩ := returned
      rw [Session.returns_bind] at returned
      obtain ⟨body, _, first, second, rfl, read, returned⟩ := returned
      obtain ⟨⟨data, found, answered, repository, page⟩, same, total, host⟩ :=
        reviewPage_returns read
      split at returned
      · obtain ⟨failed, _⟩ := Session.returns_check.mp returned
        cases failed
      · rename_i some
        rw [Session.returns_bind] at returned
        obtain ⟨_, _, _, rest, rfl, counted, returned⟩ := returned
        obtain ⟨rfl, counting⟩ := observeReviewNodes_returns counted
        split at returned
        · obtain ⟨failed, _⟩ := Session.returns_check.mp returned
          cases failed
        · rename_i short
          rw [Session.returns_ensure_bind] at returned
          obtain ⟨⟨more, count, rfl, rfl, pages⟩, following⟩ := ih body some short returned.2
          refine ⟨⟨body.reviews.nodes ++ more, count + 1, List.append_assoc .., ?_, ?_⟩, ?_⟩
          · omega
          · exact .next advances (Result.ofOption_eq_ok.mp there)
              (answered.mono (List.subset_append_left _ _)) repository page same total
              (pages.mono (List.subset_append_right _ _))
          · rw [following, counting, host]
  | case2 pageInfo reviews observed last =>
      rw [reviewPages, if_neg last, Session.returns_pure] at returned
      obtain ⟨rfl, same, rfl⟩ := returned
      obtain ⟨rfl, rfl⟩ := Prod.mk.inj same
      exact ⟨⟨[], 0, (List.append_nil _).symm, rfl, .last (Bool.not_eq_true _ ▸ last)⟩, rfl⟩

theorem appendReviewPages_returns {repository : RepositoryRecord} {expected : PullRequestBody}
    {actor : ActorIdentity} {reviewer : String} {reviews all : List ReviewRecord} {pages : Nat}
    (returned : (appendReviewPages repository expected actor reviewer reviews).Returns client calls
      (all, pages) client') :
    (∃ owner name more count, splitRepository repository.nameWithOwner = .ok (owner, name) ∧
      Pages calls owner name reviewer expected expected.reviews.pageInfo more count ∧
      all = reviews ++ more ∧ pages = 1 + count) ∧ client'.hostname = client.hostname := by
  rw [appendReviewPages, Session.returns_check_bind] at returned
  obtain ⟨⟨owner, name⟩, split, returned⟩ := returned
  obtain ⟨⟨more, count, same, total, read⟩, host⟩ := reviewPages_returns returned
  exact ⟨⟨owner, name, more, count, split, read, same, total⟩, host⟩

theorem completeSnapshot_returns {pullRequest : PullRequestRecord} {actor : ActorIdentity}
    {reviewer : ReviewerIdentity} {snapshot : CandidateSnapshot}
    (returned : (completeSnapshot pullRequest actor reviewer).Returns client calls snapshot
      client') :
    snapshot.pullRequest = pullRequest ∧ Complete calls reviewer snapshot ∧
      client'.hostname = client.hostname := by
  rw [completeSnapshot, Session.returns_bind] at returned
  obtain ⟨⟨reviews, pages⟩, _, first, _, rfl, read, returned⟩ := returned
  obtain ⟨pages, host⟩ := appendReviewPages_returns read
  rw [Session.returns_check_bind] at returned
  obtain ⟨_, valid, returned⟩ := returned
  obtain ⟨rfl, rfl, rfl⟩ := Session.returns_pure.mp returned
  rw [List.append_nil]
  exact ⟨rfl, ⟨pages, valid⟩, host⟩

theorem revalidateSnapshot_returns {expected snapshot : CandidateSnapshot} {actor : ActorIdentity}
    {reviewer : ReviewerIdentity}
    (returned : (revalidateSnapshot expected actor reviewer).Returns client calls snapshot
      client') :
    (snapshot.pullRequest.number = expected.pullRequest.number →
      SecondReading calls reviewer snapshot) ∧ client'.hostname = client.hostname := by
  rw [revalidateSnapshot, Session.returns_check_bind] at returned
  obtain ⟨⟨owner, name⟩, _, returned⟩ := returned
  rw [Session.returns_bind] at returned
  obtain ⟨data, _, first, _, rfl, asked, returned⟩ := returned
  obtain ⟨answered, host⟩ := graphql_returns asked
  rw [Session.returns_check_bind] at returned
  obtain ⟨_, _, returned⟩ := returned
  rw [Session.returns_bind] at returned
  obtain ⟨_, _, _, _, rfl, limited, returned⟩ := returned
  obtain ⟨rfl, limiting⟩ := observeRateLimit_returns limited
  rw [Session.returns_check_bind] at returned
  obtain ⟨repository, there, returned⟩ := returned
  rw [Session.returns_check_bind] at returned
  obtain ⟨_, matched, returned⟩ := returned
  rw [Session.returns_check_bind] at returned
  obtain ⟨body, found, returned⟩ := returned
  rw [Session.returns_get_bind, Session.returns_check_bind] at returned
  obtain ⟨_, _, returned⟩ := returned
  rw [Session.returns_bind] at returned
  obtain ⟨_, _, _, _, rfl, counted, returned⟩ := returned
  obtain ⟨rfl, counting⟩ := observeReviewNodes_returns counted
  rw [Session.returns_bind] at returned
  obtain ⟨⟨reviews, pages⟩, _, second, _, rfl, read, returned⟩ := returned
  obtain ⟨pages, reading⟩ := appendReviewPages_returns read
  rw [Session.returns_check_bind] at returned
  obtain ⟨_, valid, returned⟩ := returned
  obtain ⟨rfl, rfl, rfl⟩ := Session.returns_pure.mp returned
  rw [ensureRepositoryMatches, Result.ensure_eq_ok] at matched
  rw [Result.ofOption_eq_ok] at there found
  have record : repository.toRepositoryRecord = expected.pullRequest.repository := by
    obtain ⟨id, name, url⟩ := matched
    cases same : repository.toRepositoryRecord
    cases same' : expected.pullRequest.repository
    simp_all
  refine ⟨fun same => ⟨⟨owner, name, data, repository, ?_, there, record, found⟩, ?_⟩, ?_⟩
  · show Answered _ (.revalidate owner name reviewer.login body.number) data
    rw [show body.number = expected.pullRequest.number from same]
    exact answered.mono (List.subset_append_left _ _)
  · refine Complete.mono ⟨pages, valid⟩ fun exchange member => ?_
    rw [List.nil_append, List.nil_append, List.append_nil]
    exact List.mem_append_right _ member
  · rw [reading, counting, limiting, host]

/-- The first readings are those of the search results, in their order. -/
theorem completeSnapshots_returns {scopedRepository : Option RepositoryRecord}
    {actor : ActorIdentity} {reviewer : ReviewerIdentity} {index : Nat} {ids : List String}
    {nodes : List (Option PullRequestRecord)} {snapshots : List CandidateSnapshot}
    (returned : (completeSnapshots scopedRepository actor reviewer index ids nodes).Returns client
      calls snapshots client') :
    nodes = snapshots.map (fun snapshot => some snapshot.pullRequest) ∧
      (∀ snapshot ∈ snapshots, Complete calls reviewer snapshot) ∧
      client'.hostname = client.hostname := by
  induction nodes generalizing index ids snapshots client client' calls with
  | nil =>
      rw [completeSnapshots, Session.returns_pure] at returned
      obtain ⟨_, rfl, rfl⟩ := returned
      exact ⟨rfl, List.forall_mem_nil _, rfl⟩
  | cons node nodes ih =>
      rw [completeSnapshots, Session.returns_check_bind] at returned
      obtain ⟨pullRequest, there, returned⟩ := returned
      rw [Session.returns_get_bind, Session.returns_check_bind] at returned
      obtain ⟨_, _, returned⟩ := returned
      rw [Session.returns_bind] at returned
      obtain ⟨_, counted, _, rest, rfl, counting, returned⟩ := returned
      obtain ⟨rfl, host⟩ := observeReviewNodes_returns counting
      replace returned : Session.Returns (do
          check <| Result.ensure (!ids.contains pullRequest.id)
            (.invalid "GitHub review inbox search returned a duplicate pull request")
          let snapshot ← completeSnapshot pullRequest actor reviewer
          let snapshots ← completeSnapshots scopedRepository actor reviewer (index + 1)
            (pullRequest.id :: ids) nodes
          return snapshot :: snapshots) counted rest snapshots client' := by
        cases scopedRepository with
        | none => exact returned
        | some expected => exact (Session.returns_check_bind.mp returned).choose_spec.2
      rw [Session.returns_ensure_bind, Session.returns_bind] at returned
      obtain ⟨_, snapshot, read, first, second, rfl, completed, returned⟩ := returned
      obtain ⟨same, complete, host'⟩ := completeSnapshot_returns completed
      rw [Session.returns_bind] at returned
      obtain ⟨others, _, more, _, rfl, continued, returned⟩ := returned
      obtain ⟨rfl, all, host''⟩ := ih continued
      obtain ⟨rfl, rfl, rfl⟩ := Session.returns_pure.mp returned
      rw [Result.ofOption_eq_ok] at there
      rw [List.nil_append, List.append_nil]
      refine ⟨?_, ?_, ?_⟩
      · rw [List.map_cons, same, there]
      · rw [List.forall_mem_cons]
        exact ⟨complete.mono (List.subset_append_left _ _), fun snapshot member =>
          (all snapshot member).mono (List.subset_append_right _ _)⟩
      · rw [host'', host', host]

/-- The second readings, and what both are observed as. -/
theorem revalidateSnapshots_returns {actor : ActorIdentity} {reviewer : ReviewerIdentity}
    {snapshots : List CandidateSnapshot}
    {candidates : List (CandidateSnapshot × Inbox.CandidateObservation)}
    (returned : (revalidateSnapshots actor reviewer snapshots).Returns client calls candidates
      client') :
    candidates.map (·.1) = snapshots ∧
      (∀ pair ∈ candidates, ∃ observed,
        candidateObservation pair.1 observed actor reviewer = .ok pair.2 ∧
        (observed.pullRequest.number = pair.1.pullRequest.number →
          SecondReading calls reviewer observed)) ∧
      client'.hostname = client.hostname := by
  induction snapshots generalizing candidates client client' calls with
  | nil =>
      rw [revalidateSnapshots, Session.returns_pure] at returned
      obtain ⟨_, rfl, rfl⟩ := returned
      exact ⟨rfl, List.forall_mem_nil _, rfl⟩
  | cons snapshot snapshots ih =>
      rw [revalidateSnapshots, Session.returns_bind] at returned
      obtain ⟨observed, _, first, second, rfl, read, returned⟩ := returned
      obtain ⟨reading, host⟩ := revalidateSnapshot_returns read
      rw [Session.returns_check_bind] at returned
      obtain ⟨candidate, made, returned⟩ := returned
      rw [Session.returns_bind] at returned
      obtain ⟨others, _, more, _, rfl, continued, returned⟩ := returned
      obtain ⟨rfl, all, host'⟩ := ih continued
      obtain ⟨rfl, rfl, rfl⟩ := Session.returns_pure.mp returned
      rw [List.append_nil]
      refine ⟨rfl, ?_, host'.trans host⟩
      rw [List.forall_mem_cons]
      refine ⟨⟨observed, made, fun same => (reading same).mono (List.subset_append_left _ _)⟩, ?_⟩
      intro pair member
      obtain ⟨observed, made, reading⟩ := all pair member
      exact ⟨observed, made, fun same => (reading same).mono (List.subset_append_right _ _)⟩

theorem resolveRepositoryScope_returns {actor : ActorIdentity} {requested : Option String}
    {scopedRepository : Option RepositoryRecord}
    (returned : (resolveRepositoryScope actor requested).Returns client calls scopedRepository
      client') : client'.hostname = client.hostname := by
  cases requested with
  | none =>
      obtain ⟨_, _, rfl⟩ := Session.returns_pure.mp returned
      rfl
  | some requested =>
      rw [resolveRepositoryScope, Session.returns_check_bind] at returned
      obtain ⟨⟨owner, name⟩, _, returned⟩ := returned
      rw [Session.returns_bind] at returned
      obtain ⟨data, _, _, _, rfl, asked, returned⟩ := returned
      obtain ⟨_, host⟩ := graphql_returns asked
      rw [Session.returns_check_bind] at returned
      obtain ⟨_, _, returned⟩ := returned
      rw [Session.returns_bind] at returned
      obtain ⟨_, _, _, _, rfl, limited, returned⟩ := returned
      obtain ⟨rfl, limiting⟩ := observeRateLimit_returns limited
      rw [Session.returns_check_bind] at returned
      obtain ⟨repository, _, returned⟩ := returned
      rw [Session.returns_check_bind] at returned
      obtain ⟨_, _, returned⟩ := returned
      rw [Session.returns_ensure_bind, Session.returns_ensure_bind, Session.returns_get_bind,
        Session.returns_ensure_bind, Session.returns_pure] at returned
      obtain ⟨_, _, _, _, _, rfl⟩ := returned
      exact limiting.trans host

theorem searchPullRequests_returns {actor : ActorIdentity} {reviewer : ReviewerIdentity}
    {repository : Option String} {limit : Nat} {search : SearchConnection}
    (returned : (searchPullRequests actor reviewer repository limit).Returns client calls search
      client') :
    (∃ searchQuery data, Answered calls (.search searchQuery reviewer.login limit) data ∧
      data.search = search) ∧ client'.hostname = client.hostname := by
  rw [searchPullRequests, Session.returns_bind] at returned
  obtain ⟨data, _, first, _, rfl, asked, returned⟩ := returned
  obtain ⟨answered, host⟩ := graphql_returns asked
  rw [Session.returns_check_bind] at returned
  obtain ⟨_, _, returned⟩ := returned
  rw [Session.returns_bind] at returned
  obtain ⟨_, _, _, _, rfl, limited, returned⟩ := returned
  obtain ⟨rfl, limiting⟩ := observeRateLimit_returns limited
  rw [Session.returns_ensure_bind, Session.returns_ensure_bind, Session.returns_ensure_bind,
    Session.returns_pure] at returned
  obtain ⟨_, _, _, _, rfl, rfl⟩ := returned
  exact ⟨⟨_, data, answered.mono (List.subset_append_left _ _), rfl⟩, limiting.trans host⟩

end

end Stratadiff.ReviewInbox
