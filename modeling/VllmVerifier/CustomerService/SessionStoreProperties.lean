import VllmVerifier.CustomerService.SessionsProperties

/-!
The store of sessions: how many there are, whom they belong to and when one goes.
-/

set_option autoImplicit false

namespace VllmVerifier.CustomerService.Sessions

open Python

variable {Time : Type}

/-! ## Requests -/

/-- Between steps a request waits for a lock or for the classifier, or it is over. -/
inductive Rests : Ask → Stage → Prop where
  | locking {ask : Ask} : Rests ask .locking
  | classifying {text : Str} {intent : Option Str} (working : Conversation) :
      Rests (.chat text intent) (.classifying working)
  | ended {ask : Ask} : Rests ask .ended

/-- What a request keeps from its arrival on. -/
def Request.badge (request : Request) : Ask × Option Str × Option Nat × Option Str :=
  (request.ask, request.cookie, request.session, request.issued)

/-- How far a request is from its end. -/
def Stage.rank : Stage → Nat
  | .ended => 0
  | .classifying _ => 1
  | .entered | .locking => 2
  | .arrived => 3

/-- The steps that a request can still take. -/
def Request.work (request : Request) : Nat :=
  match request.stage with
  | .ended => 0
  | stage => stage.rank + (if request.expired then 0 else 1) + if request.cancelled then 0 else 1

/-- A request that rests and is not over waits for one of two things. -/
theorem Rests.cases_going {ask : Ask} {stage : Stage} (rests : Rests ask stage)
    (going : stage ≠ .ended) : stage = .locking ∨
      ∃ text intent working, ask = .chat text intent ∧ stage = .classifying working := by
  cases rests with
  | locking => exact .inl rfl
  | classifying working => exact .inr ⟨_, _, working, rfl, rfl⟩
  | ended => exact absurd rfl going

theorem Request.work_pos {request : Request} (going : request.stage ≠ .ended) :
    0 < request.work := by
  unfold work
  split
  · rename_i ended
    exact absurd ended going
  · rename_i stage _
    cases stage : request.stage with
    | ended => exact absurd stage going
    | classifying | entered | locking | arrived =>
        simp only [Stage.rank]
        omega

theorem Request.work_moved {request : Request} {stage : Stage}
    (lower : stage.rank < request.stage.rank) :
    { request with stage := stage }.work < request.work := by
  unfold work
  cases known : request.stage <;> cases stage <;> simp_all [Stage.rank]

/-- All that a request does: to itself, its session and the responses. -/
structure Touched (server : Server Time) (id : Nat) (request : Request) (index : Nat)
    (next : Server Time) : Prop where
  shape : ∃ after session more,
    next = { server.place id after index session with responses := server.responses ++ more } ∧
      after.badge = request.badge ∧ Rests after.ask after.stage ∧ after.work < request.work ∧
      ∀ response ∈ more, response.request = id ∧
        (response.cookie = none ∨ response.cookie = request.issued)

section Touched

variable {server next : Server Time} {id index : Nat} {request : Request} {session : Session Time}

theorem Touched.place {after : Request} (badge : after.badge = request.badge)
    (resting : Rests after.ask after.stage) (lower : after.work < request.work) :
    Touched server id request index (server.place id after index session) :=
  ⟨after, session, [], by simp [Server.place], badge, resting, lower, by simp⟩

theorem Touched.conclude {asker : Request} (badge : asker.badge = request.badge)
    (going : request.stage ≠ .ended) (outcome : Outcome) :
    Touched server id request index (server.conclude id asker index session outcome) := by
  refine ⟨{ asker with stage := .ended }, session, [asker.respond id outcome], rfl, badge, .ended,
    Request.work_pos going, fun response member => ?_⟩
  rw [List.mem_singleton] at member
  have issued : asker.issued = request.issued := congrArg (fun badge => badge.2.2.2) badge
  rw [member]
  refine ⟨rfl, ?_⟩
  simp only [Request.respond]
  split
  · exact .inr issued
  · exact .inl rfl

theorem Touched.placed {first : Request} {before : Session Time}
    (touched : Touched (server.place id first index before) id request index next) :
    Touched server id request index next := by
  obtain ⟨after, session, more, shape, rest⟩ := touched.shape
  refine ⟨after, session, more, ?_, rest⟩
  rw [shape, Server.place_place]
  rfl

variable [Unicode]

theorem enter_touched (early : 1 < request.stage.rank) (later : Time) :
    Touched server id request index (enter server id request index session later) := by
  have going : request.stage ≠ .ended := by
    intro ended
    rw [ended] at early
    exact absurd early (by decide)
  have entered : Touched (server.place id { request with stage := .entered } index session) id
      request index (enter server id request index session later) := by
    unfold Sessions.enter
    dsimp only
    split
    · exact .conclude rfl going _
    · exact .conclude rfl going _
    · rename_i text intent asked
      split
      · exact .place rfl (asked ▸ .classifying _) (Request.work_moved early)
      · exact .conclude rfl going _
  exact entered.placed

theorem act_touched {event : Event Time} (resting : Rests request.ask request.stage)
    (acted : act server id request index session event = some next) :
    Touched server id request index next := by
  cases event with
  | arrive ask cookie token now later => cases acted
  | resume number later =>
      have resumed : request.stage = .locking → Touched server id request index
          (resume server id request index session later) := by
        intro locking
        unfold Sessions.resume
        dsimp only
        split
        · exact enter_touched (by rw [locking]; decide) later
        · exact .conclude rfl (by rw [locking]; simp) _
      simp only [Sessions.act] at acted
      split at acted
      · rename_i locking _
        cases acted
        exact resumed locking
      · rename_i locking _
        cases acted
        exact resumed locking
      · cases acted
  | answer number answer later =>
      simp only [Sessions.act] at acted
      split at acted
      · rename_i working text intent classifying asked
        cases acted
        exact .conclude rfl (by rw [classifying]; simp) _
      · cases acted
  | unwind number =>
      simp only [Sessions.act] at acted
      split at acted
      · rename_i working classifying
        split at acted
        · cases acted
          exact .conclude rfl (by rw [classifying]; simp) _
        · cases acted
      · cases acted
  | expire number =>
      simp only [Sessions.act] at acted
      split at acted
      · cases acted
      · cases acted
      · cases acted
      · rename_i text intent asked going
        split at acted
        · cases acted
        · rename_i fresh
          cases acted
          refine .place rfl resting ?_
          cases stage : request.stage <;> simp_all [Request.work]
  | cancel number =>
      simp only [Sessions.act] at acted
      split at acted
      · cases acted
      · split at acted
        · cases acted
        · rename_i fresh
          cases acted
          refine .place rfl resting ?_
          cases stage : request.stage <;> simp_all [Request.work]

/-- What an arrival does: the sessions that are out of time go, and a request joins the others. -/
inductive Arrived (settings : Settings Time) (server : Server Time) (ask : Ask)
    (cookie : Option Str) (token : Str) (now : Time) : Server Time → Prop where
  | refused {left : Server Time} : Found settings server cookie token now left none →
      Arrived settings server ask cookie token now
        { left with
          requests := server.requests ++ [⟨ask, cookie, none, none, .ended, false, false⟩]
          responses := server.responses ++ [⟨server.requests.length, .full, none⟩] }
  | admitted {left next : Server Time} {index : Nat} {session : Session Time}
      {issued : Option Str} :
      Found settings server cookie token now left (some (index, session, issued)) →
      Touched { left with
          requests := server.requests ++ [⟨ask, cookie, some index, issued, .arrived, false, false⟩] }
        server.requests.length ⟨ask, cookie, some index, issued, .arrived, false, false⟩ index next →
      Arrived settings server ask cookie token now next

theorem arrive_arrived {settings : Settings Time} (coherent : Coherent server) (ask : Ask)
    (cookie : Option Str) (token : Str) (now later : Time) :
    Arrived settings server ask cookie token now
      (arrive settings server ask cookie token now later) := by
  have found : Found settings server cookie token now
      (Sessions.session settings server cookie token now).1
      (Sessions.session settings server cookie token now).2 := session_found coherent
  have admits := found.admits coherent
  unfold Sessions.arrive
  dsimp only
  split
  · rename_i left shape
    rw [shape] at found admits
    rw [show left.requests = server.requests from admits.requests,
      show left.responses = server.responses from admits.responses]
    exact .refused found
  · rename_i left index known issued shape
    rw [shape] at found admits
    rw [show left.requests = server.requests from admits.requests]
    refine .admitted found ?_
    split
    · exact enter_touched (by simp [Stage.rank]) later
    · exact .place rfl .locking (by simp [Request.work, Stage.rank])

end Touched

/-! ## Ownership -/

/-- The request for which a session was made, with the token it was issued. -/
def Server.Creates (server : Server Time) (creator index : Nat) (token : Str) : Prop :=
  ∃ request, server.requests[creator]? = some request ∧ request.session = some index ∧
    request.issued = some token

/-- The tokens that were drawn, one for each request. -/
def drawn (events : List (Event Time)) : List Str :=
  events.filterMap fun event =>
    match event with
    | .arrive _ _ token _ _ => some token
    | _ => none

structure Stored (settings : Settings Time) (tokens : List Str) (server : Server Time) : Prop where
  count : tokens.length = server.requests.length
  issued : ∀ (id : Nat) (request : Request) (token : Str), server.requests[id]? = some request →
    request.issued = some token → tokens[id]? = some token
  bounded : server.sessions.entries.length ≤ settings.maxSessions
  apart : ∀ entry ∈ server.sessions.entries, ∀ other ∈ server.sessions.entries,
    entry.2 = other.2 → entry = other
  named : ∀ entry ∈ server.sessions.entries, ∃ creator, server.Creates creator entry.2 entry.1
  owned : ∀ index < server.objects.length, ∃ creator token, server.Creates creator index token ∧
    ∀ (other : Nat) (request : Request), server.requests[other]? = some request →
      request.session = some index →
        other = creator ∨ request.issued = none ∧ request.cookie = some token
  sent : ∀ response ∈ server.responses, ∀ token, response.cookie = some token →
    ∃ index, server.Creates response.request index token

theorem Stored.initial {settings : Settings Time} : Stored settings [] (.initial : Server Time) where
  count := rfl
  issued id request token found := by cases found
  bounded := Nat.zero_le _
  apart entry member := by cases member
  named entry member := by cases member
  owned index bound := by cases bound
  sent response member := by cases member

section Stored

variable {settings : Settings Time} {tokens : List Str} {server next : Server Time}
  {id index : Nat} {request : Request}

theorem badge_of_map {first second : List Request} (same : first.map Request.badge =
    second.map Request.badge) {found : Request} (known : first[id]? = some found) :
    ∃ other, second[id]? = some other ∧ other.badge = found.badge := by
  have badges := congrArg (·[id]?) same
  simp only [List.getElem?_map, known, Option.map_some] at badges
  obtain ⟨other, present, same⟩ := Option.map_eq_some_iff.mp badges.symm
  exact ⟨other, present, same⟩

theorem Touched.badges (touched : Touched server id request index next)
    (asked : server.requests[id]? = some request) :
    next.requests.map Request.badge = server.requests.map Request.badge := by
  obtain ⟨after, session, more, shape, badge, _⟩ := touched.shape
  rw [shape]
  exact Machine.map_set asked badge

theorem Server.Creates.congr {creator : Nat} {token : Str}
    (creates : server.Creates creator index token)
    (same : server.requests.map Request.badge = next.requests.map Request.badge) :
    next.Creates creator index token := by
  obtain ⟨request, asked, joined, issued⟩ := creates
  obtain ⟨other, found, badge⟩ := badge_of_map same asked
  simp only [Request.badge, Prod.mk.injEq] at badge
  exact ⟨other, found, badge.2.2.1.trans joined, badge.2.2.2.trans issued⟩

theorem Stored.touched (stored : Stored settings tokens server)
    (asked : server.requests[id]? = some request) (joined : request.session = some index)
    (touched : Touched server id request index next) : Stored settings tokens next := by
  have badges := touched.badges asked
  obtain ⟨after, session, more, shape, badge, _, _, said⟩ := touched.shape
  have sessions : next.sessions = server.sessions := by rw [shape]; rfl
  have objects : next.objects.length = server.objects.length := by
    rw [shape]
    exact List.length_set
  refine ⟨?_, ?_, sessions ▸ stored.bounded, sessions ▸ stored.apart, ?_, ?_, ?_⟩
  · have lengths := congrArg List.length badges
    rw [List.length_map, List.length_map] at lengths
    rw [lengths, stored.count]
  · intro number found token known issued
    obtain ⟨other, present, same⟩ := badge_of_map badges known
    simp only [Request.badge, Prod.mk.injEq] at same
    exact stored.issued number other token present (same.2.2.2.trans issued)
  · intro entry member
    rw [sessions] at member
    obtain ⟨creator, creates⟩ := stored.named entry member
    exact ⟨creator, creates.congr badges.symm⟩
  · intro number bound
    rw [objects] at bound
    obtain ⟨creator, token, creates, others⟩ := stored.owned number bound
    refine ⟨creator, token, creates.congr badges.symm, fun other found known on => ?_⟩
    obtain ⟨before, present, same⟩ := badge_of_map badges known
    simp only [Request.badge, Prod.mk.injEq] at same
    rw [← same.2.1, ← same.2.2.2]
    exact others other before present (same.2.2.1.trans on)
  · intro response member token cookie
    rw [shape] at member
    rcases List.mem_append.mp member with early | late
    · obtain ⟨number, creates⟩ := stored.sent response early token cookie
      exact ⟨number, creates.congr badges.symm⟩
    · obtain ⟨own, told⟩ := said response late
      rcases told with silent | issued
      · rw [silent] at cookie
        cases cookie
      · have creates : server.Creates id index token := ⟨request, asked, joined, issued ▸ cookie⟩
        exact ⟨index, own ▸ creates.congr badges.symm⟩

/-- A session has one creator and one token. -/
theorem Stored.unique (stored : Stored settings tokens server) {creator other : Nat}
    {token another : Str} (bound : index < server.objects.length)
    (first : server.Creates creator index token) (second : server.Creates other index another) :
    creator = other ∧ token = another := by
  obtain ⟨owner, _, _, others⟩ := stored.owned index bound
  have same : ∀ {number name}, server.Creates number index name → number = owner := by
    intro number name creates
    obtain ⟨request, asked, joined, issued⟩ := creates
    rcases others number request asked joined with known | ⟨silent, _⟩
    · exact known
    · rw [silent] at issued
      cases issued
  have one : creator = other := (same first).trans (same second).symm
  subst one
  obtain ⟨request, asked, _, issued⟩ := first
  obtain ⟨found, known, _, told⟩ := second
  rw [asked] at known
  cases known
  rw [issued] at told
  exact ⟨rfl, Option.some.inj told⟩

/-- One more request; its session, unless there is none, is known by its cookie or new. -/
theorem Stored.append (stored : Stored settings tokens server) {token : Str}
    (joined : next.requests = server.requests ++ [request])
    (issued : ∀ name, request.issued = some name → name = token)
    (responses : ∃ more, next.responses = server.responses ++ more ∧
      ∀ response ∈ more, response.cookie = none)
    (bounded : next.sessions.entries.length ≤ settings.maxSessions)
    (apart : ∀ entry ∈ next.sessions.entries, ∀ other ∈ next.sessions.entries,
      entry.2 = other.2 → entry = other)
    (named : ∀ entry ∈ next.sessions.entries, entry ∈ server.sessions.entries ∨
      request.session = some entry.2 ∧ request.issued = some entry.1)
    (owned : ∀ index < next.objects.length,
      (index < server.objects.length ∧ ∀ creator name, server.Creates creator index name →
        request.session = some index → request.issued = none ∧ request.cookie = some name) ∨
      (index = server.objects.length ∧ request.session = some index ∧
        request.issued = some token))
    (placed : ∀ (id index : Nat) (request : Request), server.requests[id]? = some request →
      request.session = some index → index < server.objects.length) :
    Stored settings (tokens ++ [token]) next := by
  have keeps : ∀ creator index name, server.Creates creator index name →
      next.Creates creator index name := by
    intro creator index name creates
    obtain ⟨found, asked, rest⟩ := creates
    refine ⟨found, ?_, rest⟩
    rw [joined, List.getElem?_append_left (List.getElem?_eq_some_iff.mp asked).1, asked]
  have last : next.requests[server.requests.length]? = some request := by
    rw [joined]
    exact List.getElem?_concat_length
  refine ⟨by simp [stored.count, joined], ?_, bounded, apart, ?_, ?_, ?_⟩
  · intro id found name known own
    rw [joined] at known
    rcases getElem?_append_one known with before | ⟨here, same⟩
    · have early := (List.getElem?_eq_some_iff.mp before).1
      rw [List.getElem?_append_left (stored.count ▸ early)]
      exact stored.issued id found name before own
    · rw [here, ← stored.count, List.getElem?_concat_length, issued name (same ▸ own)]
  · intro entry member
    rcases named entry member with before | new
    · obtain ⟨creator, creates⟩ := stored.named entry before
      exact ⟨creator, keeps _ _ _ creates⟩
    · exact ⟨server.requests.length, request, last, new⟩
  · intro index bound
    rcases owned index bound with ⟨early, cookie⟩ | ⟨here, owns, made⟩
    · obtain ⟨creator, name, creates, others⟩ := stored.owned index early
      refine ⟨creator, name, keeps _ _ _ creates, fun other found known on => ?_⟩
      rw [joined] at known
      rcases getElem?_append_one known with before | ⟨_, same⟩
      · exact others other found before on
      · exact .inr (same ▸ cookie creator name creates (same ▸ on))
    · refine ⟨server.requests.length, token, ⟨request, last, owns, made⟩,
        fun other found known on => ?_⟩
      rw [joined] at known
      rcases getElem?_append_one known with before | ⟨latest, _⟩
      · exact absurd (placed other index found before on) (here ▸ Nat.lt_irrefl _)
      · exact .inl latest
  · intro response member name cookie
    obtain ⟨more, shape, silent⟩ := responses
    rw [shape] at member
    rcases List.mem_append.mp member with early | late
    · obtain ⟨index, creates⟩ := stored.sent response early name cookie
      exact ⟨index, keeps _ _ _ creates⟩
    · rw [silent response late] at cookie
      cases cookie

theorem Stored.arrived (stored : Stored settings tokens server) (coherent : Coherent server)
    {ask : Ask} {cookie : Option Str} {token : Str} {now : Time}
    (arrived : Arrived settings server ask cookie token now next) :
    Stored settings (tokens ++ [token]) next := by
  have live : ∀ entry ∈ (evict settings server now).entries, entry ∈ server.sessions.entries :=
    fun entry member => (mem_evict_iff.mp member).1
  have fewer : (evict settings server now).entries.length ≤ settings.maxSessions := by
    rw [evict, Dict.entries_foldl_erase server.sessions fun entry =>
      server.idle settings now entry.2]
    exact (List.length_filter_le _ _).trans stored.bounded
  have apart : ∀ entry ∈ (evict settings server now).entries,
      ∀ other ∈ (evict settings server now).entries, entry.2 = other.2 → entry = other :=
    fun entry member other present => stored.apart entry (live entry member) other (live other present)
  cases arrived with
  | refused found =>
      cases found with
      | full foreign full =>
          refine stored.append rfl ?_ ⟨[_], rfl, ?_⟩ ?_ ?_ ?_ ?_ coherent.placed
          · intro name told
            cases told
          · simp
          · exact fewer
          · exact apart
          · exact fun entry member => .inl (live entry member)
          · exact fun index bound => .inl ⟨bound, fun creator name _ on => by cases on⟩
  | admitted found touched =>
      refine Stored.touched ?_ List.getElem?_concat_length rfl touched
      cases found with
      | @known name index session named listed object =>
          refine stored.append rfl ?_ ⟨[], ?_, ?_⟩ ?_ ?_ ?_ ?_ coherent.placed
          · intro name told
            cases told
          · exact (List.append_nil _).symm
          · simp
          · exact fewer
          · exact apart
          · exact fun entry member => .inl (live entry member)
          · refine fun number bound => .inl ⟨bound, fun creator other creates on => ?_⟩
            cases on
            obtain ⟨namer, names⟩ := stored.named _ (live _ listed)
            exact ⟨rfl, (stored.unique bound creates names).2 ▸ named⟩
      | fresh foreign room =>
          refine stored.append rfl ?_ ⟨[], ?_, ?_⟩ ?_ ?_ ?_ ?_ coherent.placed
          · exact fun name told => (Option.some.inj told).symm
          · exact (List.append_nil _).symm
          · simp
          · exact (Dict.length_set_le _ _ _).trans room
          · have bound : ∀ entry ∈ (evict settings server now).entries,
                entry.2 ≠ server.objects.length := fun entry member =>
              Nat.ne_of_lt (coherent.known entry (live entry member))
            intro entry member other present same
            rcases Dict.mem_entries_set member with before | new
            · rcases Dict.mem_entries_set present with early | late
              · exact apart entry before other early same
              · rw [late] at same
                exact absurd same (bound entry before)
            · rcases Dict.mem_entries_set present with early | late
              · rw [new] at same
                exact absurd same.symm (bound other early)
              · rw [new, late]
          · intro entry member
            rcases Dict.mem_entries_set member with before | new
            · exact .inl (live entry before)
            · rw [new]
              exact .inr ⟨rfl, rfl⟩
          · intro index bound
            rw [List.length_append, List.length_singleton] at bound
            rcases Nat.lt_succ_iff_lt_or_eq.mp bound with early | here
            · refine .inl ⟨early, fun creator name _ on => ?_⟩
              cases on
              exact absurd early (Nat.lt_irrefl _)
            · exact .inr ⟨here, by rw [here], rfl⟩

end Stored

/-! ## Runs -/

section Runs

variable [Unicode] {settings : Settings Time} {server next : Server Time}

/-- Between steps every request rests. -/
def Server.Resting (server : Server Time) : Prop :=
  ∀ (id : Nat) (request : Request), server.requests[id]? = some request → Rests request.ask request.stage

omit [Unicode] in
theorem Touched.resting {id index : Nat} {request : Request}
    (touched : Touched server id request index next) (asked : server.requests[id]? = some request)
    (others : ∀ (other : Nat) (found : Request), other ≠ id →
      server.requests[other]? = some found → Rests found.ask found.stage) : next.Resting := by
  obtain ⟨after, session, more, shape, _, rests, _⟩ := touched.shape
  intro number found known
  rw [shape] at known
  by_cases own : number = id
  · have latest : (server.requests.set id after)[id]? = some after :=
      List.getElem?_set_self (List.getElem?_eq_some_iff.mp asked).1
    rw [own] at known
    cases latest.symm.trans known
    exact rests
  · refine others number found own ?_
    rw [← known]
    exact (List.getElem?_set_ne (Ne.symm own)).symm

omit [Unicode] in
theorem Arrived.resting {ask : Ask} {cookie : Option Str} {token : Str} {now : Time}
    (arrived : Arrived settings server ask cookie token now next) (resting : server.Resting) :
    next.Resting := by
  cases arrived with
  | refused found =>
      intro id request known
      rcases getElem?_append_one known with before | ⟨_, same⟩
      · exact resting id request before
      · rw [same]
        exact .ended
  | admitted found touched =>
      refine touched.resting List.getElem?_concat_length fun other request own known => ?_
      rcases getElem?_append_one known with before | ⟨same, _⟩
      · exact resting other request before
      · exact absurd same own

theorem step_resting {event : Event Time} (valid : Valid server) (resting : server.Resting)
    (stepped : step settings server event = some next) : next.Resting := by
  cases names : event.request? with
  | none =>
      cases event with
      | arrive ask cookie token now later =>
          cases stepped
          exact (arrive_arrived valid.toCoherent ask cookie token now later).resting resting
      | resume | answer | unwind | expire | cancel => cases names
  | some number =>
      obtain ⟨request, index, session, here, acted⟩ := step_act names stepped
      have touched := act_touched (resting number request here.asked) acted
      exact touched.resting here.asked fun other found _ known => resting other found known

theorem step_stored {tokens : List Str} {event : Event Time} (valid : Valid server)
    (resting : server.Resting) (stored : Stored settings tokens server)
    (stepped : step settings server event = some next) :
    Stored settings (tokens ++ drawn [event]) next := by
  cases names : event.request? with
  | none =>
      cases event with
      | arrive ask cookie token now later =>
          cases stepped
          exact stored.arrived valid.toCoherent
            (arrive_arrived valid.toCoherent ask cookie token now later)
      | resume | answer | unwind | expire | cancel => cases names
  | some number =>
      obtain ⟨request, index, session, here, acted⟩ := step_act names stepped
      have silent : drawn [event] = [] := by
        cases event with
        | arrive => cases names
        | resume | answer | unwind | expire | cancel => rfl
      rw [silent, List.append_nil]
      exact stored.touched here.asked here.joined
        (act_touched (resting number request here.asked) acted)

theorem run_stored {events : List (Event Time)}
    (ran : Machine.run (step settings) .initial events = some server) :
    Valid server ∧ server.Resting ∧ Stored settings (drawn events) server := by
  have start : Valid (.initial : Server Time) ∧ Server.Resting (.initial : Server Time) ∧
      Stored settings (drawn ([] : List (Event Time))) .initial :=
    ⟨.initial, fun id request found => (by cases found), .initial⟩
  have kept : ∀ (earlier : List (Event Time)) (state : Server Time) (event : Event Time)
      (next : Server Time),
      Valid state ∧ state.Resting ∧ Stored settings (drawn earlier) state →
      step settings state event = some next →
      Valid next ∧ next.Resting ∧ Stored settings (drawn (earlier ++ [event])) next := by
    intro earlier state event next given stepped
    obtain ⟨valid, resting, stored⟩ := given
    refine ⟨step_valid valid stepped, step_resting valid resting stepped, ?_⟩
    rw [drawn, List.filterMap_append]
    exact step_stored valid resting stored stepped
  exact Machine.run_history kept ran start

/-- What a client can rely on where no token is drawn twice. -/
structure Isolated (settings : Settings Time) (server : Server Time) : Prop where
  /-- A session is reached by the request that it was made for and by the token of its
  cookie, which is that session's alone. -/
  owned : ∀ index < server.objects.length, ∃ creator token, server.Creates creator index token ∧
    (∀ (other : Nat) (request : Request), server.requests[other]? = some request →
      request.session = some index → other = creator ∨ request.cookie = some token) ∧
    ∀ another someone, server.Creates someone another token → another = index
  /-- A cookie is sent to the request that its session was made for. -/
  sent : ∀ response ∈ server.responses, ∀ token, response.cookie = some token →
    ∃ index, server.Creates response.request index token
  named : ∀ entry ∈ server.sessions.entries, ∃ creator, server.Creates creator entry.2 entry.1
  bounded : server.sessions.entries.length ≤ settings.maxSessions

/-- Sessions stay apart, however requests interleave and whatever cookies they carry. -/
theorem sessions_isolated {events : List (Event Time)} (fresh : (drawn events).Nodup)
    (ran : Machine.run (step settings) .initial events = some server) :
    Isolated settings server := by
  obtain ⟨valid, _, stored⟩ := run_stored ran
  refine ⟨fun index bound => ?_, stored.sent, stored.named, stored.bounded⟩
  obtain ⟨creator, token, creates, others⟩ := stored.owned index bound
  refine ⟨creator, token, creates, fun other request asked on => ?_, fun another someone made => ?_⟩
  · rcases others other request asked on with same | ⟨_, cookie⟩
    · exact .inl same
    · exact .inr cookie
  · obtain ⟨first, asked, joined, issued⟩ := creates
    obtain ⟨second, found, on, told⟩ := made
    have drew := stored.issued creator first token asked issued
    have again := stored.issued someone second token found told
    have same : creator = someone := (List.getElem?_inj
      (List.getElem?_eq_some_iff.mp drew).1 fresh).mp (drew.trans again.symm)
    subst same
    rw [asked] at found
    cases found
    exact Option.some.inj (on.symm.trans joined)

/-! ## Sessions in use -/

/-- A token is drawn that nobody has, and no session whose lock is awaited is out of time. -/
def Timely (settings : Settings Time) (server : Server Time) : Event Time → Prop
  | .arrive _ _ token now _ =>
      token ∉ server.sessions.keys ∧
        ∀ (id index : Nat) (request : Request) (session : Session Time),
          server.At id request index session → request.stage = .locking →
          settings.stale now session.accessed = false
  | _ => True

instance {event : Event Time} : Decidable (Timely settings server event) :=
  match event with
  | .arrive _ _ token now _ =>
      decidable_of_iff (token ∉ server.sessions.keys ∧
          ∀ request ∈ server.requests, request.stage.status = .waiting →
            ∀ index ∈ request.session, ∀ session ∈ server.objects[index]?,
              settings.stale now session.accessed = false) (by
        refine and_congr_right fun _ => ⟨?_, ?_⟩
        · intro punctual id index request session here waiting
          exact punctual request (List.mem_of_getElem? here.asked) (by rw [waiting]; rfl) index
            here.joined session here.object
        · intro punctual request member waiting index joined session object
          obtain ⟨id, asked⟩ := List.mem_iff_getElem?.mp member
          refine punctual id index request session ⟨asked, joined, object⟩ ?_
          cases stage : request.stage <;> rw [stage] at waiting <;> first | rfl | cases waiting)
  | .resume .. | .answer .. | .unwind .. | .expire .. | .cancel .. => .isTrue trivial

/-- The session of every request that is under way is kept. -/
def Server.Keeps (server : Server Time) : Prop :=
  ∀ (id index : Nat) (request : Request), server.requests[id]? = some request →
    request.session = some index → request.stage ≠ .ended →
    ∃ token, (token, index) ∈ server.sessions.entries

theorem act_ended {id index : Nat} {request : Request} {session : Session Time}
    (ended : request.stage = .ended) (event : Event Time) :
    act server id request index session event = none := by
  cases event <;> simp [act, ended]

omit [Unicode] in
theorem Coherent.not_idle {id index : Nat} {request : Request} (coherent : Coherent server)
    (resting : server.Resting) (asked : server.requests[id]? = some request)
    (joined : request.session = some index) (going : request.stage ≠ .ended) {now : Time}
    (timely : ∀ session, server.At id request index session → request.stage = .locking →
      settings.stale now session.accessed = false) :
    server.idle settings now index = false := by
  have bound := coherent.placed id index request asked joined
  have here : server.At id request index server.objects[index] :=
    ⟨asked, joined, List.getElem?_eq_getElem bound⟩
  rw [Server.idle, here.object, Option.any_some]
  rcases (resting id request asked).cases_going going with locking | ⟨_, _, working, _, stage⟩
  · rw [timely _ here locking, Bool.false_and]
  · have held := (coherent.locks index _ here.object).held id
      (here.status.trans (by rw [stage]; rfl))
    rw [held, Bool.not_true, Bool.and_false]

omit [Unicode] in
theorem mem_set_of_mem {sessions : Dict Str Nat} {entry : Str × Nat} {token : Str} {index : Nat}
    (member : entry ∈ sessions.entries) (different : entry.1 ≠ token) :
    entry ∈ (sessions.set token index).entries := by
  have found : sessions.get? entry.1 = some entry.2 := Dict.get?_eq_some_iff.mpr member
  rw [← Dict.get?_set_of_ne different sessions index] at found
  exact Dict.get?_eq_some_iff.mp found

omit [Unicode] in
theorem Arrived.keeps {ask : Ask} {cookie : Option Str} {token : Str} {now later : Time}
    (arrived : Arrived settings server ask cookie token now next) (coherent : Coherent server)
    (resting : server.Resting) (keeps : server.Keeps)
    (timely : Timely settings server (.arrive ask cookie token now later)) : next.Keeps := by
  obtain ⟨unused, punctual⟩ := timely
  -- A request that is under way keeps its session from going.
  have stays : ∀ (id index : Nat) (request : Request), server.requests[id]? = some request →
      request.session = some index → request.stage ≠ .ended →
      ∃ token, (token, index) ∈ (evict settings server now).entries := by
    intro id index request asked joined going
    obtain ⟨name, listed⟩ := keeps id index request asked joined going
    refine ⟨name, mem_evict_iff.mpr ⟨listed, ?_⟩⟩
    exact coherent.not_idle resting asked joined going fun session here waiting =>
      punctual id index request session here waiting
  cases arrived with
  | refused found =>
      cases found with
      | full foreign full =>
          intro id index request asked joined going
          rcases getElem?_append_one asked with before | ⟨_, same⟩
          · exact stays id index request before joined going
          · rw [same] at joined
            cases joined
  | admitted found touched =>
      obtain ⟨after, session, more, shape, badge, _⟩ := touched.shape
      have latest : after.session = some _ := congrArg (fun badge => badge.2.2.1) badge
      rw [shape]
      intro id index request asked joined going
      have placed : ((server.requests ++ [_]).set server.requests.length after)[id]? = some request :=
        asked
      rw [List.set_append_right _ _ (Nat.le_refl _), Nat.sub_self, List.set_cons_zero] at placed
      cases found with
      | known named listed object =>
          rcases getElem?_append_one placed with before | ⟨_, same⟩
          · exact stays id index request before joined going
          · rw [same, latest] at joined
            cases joined
            exact ⟨_, listed⟩
      | fresh foreign room =>
          rcases getElem?_append_one placed with before | ⟨_, same⟩
          · obtain ⟨name, listed⟩ := stays id index request before joined going
            refine ⟨name, mem_set_of_mem listed fun same => unused ?_⟩
            exact same ▸ Dict.mem_keys_of_mem (mem_evict_iff.mp listed).1
          · rw [same, latest] at joined
            cases joined
            exact ⟨token, Dict.get?_eq_some_iff.mp (Dict.get?_set_self _ _ _)⟩

theorem step_keeps {event : Event Time} (valid : Valid server) (resting : server.Resting)
    (keeps : server.Keeps) (timely : Timely settings server event)
    (stepped : step settings server event = some next) : next.Keeps := by
  cases names : event.request? with
  | none =>
      cases event with
      | arrive ask cookie token now later =>
          cases stepped
          exact (arrive_arrived valid.toCoherent ask cookie token now later).keeps valid.toCoherent
            resting keeps timely
      | resume | answer | unwind | expire | cancel => cases names
  | some number =>
      obtain ⟨request, index, session, here, acted⟩ := step_act names stepped
      have touched := act_touched (resting number request here.asked) acted
      have going : request.stage ≠ .ended := by
        intro ended
        rw [act_ended ended] at acted
        cases acted
      obtain ⟨after, changed, more, shape, badge, _⟩ := touched.shape
      intro id other found asked joined open_
      rw [shape] at asked ⊢
      have asked : (server.requests.set number after)[id]? = some found := asked
      by_cases own : id = number
      · rw [own, List.getElem?_set_self (List.getElem?_eq_some_iff.mp here.asked).1] at asked
        cases asked
        have same : after.session = request.session := congrArg (fun badge => badge.2.2.1) badge
        exact keeps number other request here.asked (same ▸ joined) going
      · rw [List.getElem?_set_ne (Ne.symm own)] at asked
        exact keeps id other found asked joined open_

/-- A session does not go while a request is under way on it, unless one has waited for
its lock until the session is out of time. -/
theorem sessions_kept {events : List (Event Time)}
    (timely : Machine.Along (step settings) (Timely settings) .initial events)
    (ran : Machine.run (step settings) .initial events = some server) : server.Keeps := by
  have start : Valid (.initial : Server Time) ∧ Server.Resting (.initial : Server Time) ∧
      Server.Keeps (.initial : Server Time) :=
    ⟨.initial, fun id request found => (by cases found),
      fun id index request found => (by cases found)⟩
  have kept : ∀ (state : Server Time) (event : Event Time) (next : Server Time),
      Valid state ∧ state.Resting ∧ state.Keeps → Timely settings state event →
      step settings state event = some next → Valid next ∧ next.Resting ∧ next.Keeps := by
    intro state event next given timely stepped
    obtain ⟨valid, resting, keeps⟩ := given
    exact ⟨step_valid valid stepped, step_resting valid resting stepped,
      step_keeps valid resting keeps timely stepped⟩
  exact (Machine.run_invariant_along kept timely ran start).2.2

end Runs

/-- Two sessions, of which each is out of time after ten units of it. -/
def tenUnits : Settings Nat := ⟨2, fun now accessed => decide (accessed + 10 < now)⟩

/-- A session whose lock is held for longer than it lasts; the one that is idle goes. -/
def busySession : List (Event Nat) := [
  .arrive (.chat (lit "도착") none) none (lit "a") 0 0,
  .arrive (.chat (lit "안녕") none) (some (lit "a")) (lit "b") 5 5,
  .arrive .session none (lit "c") 12 12,
  .answer 0 (.ok ⟨none, [productDetail]⟩) 13,
  .resume 1 14,
  .arrive .session none (lit "d") 40 40]

theorem sessions_isolated_two : ∃ server : Server Nat,
    Machine.run (@step Nat basicUnicode tenUnits) .initial (busySession.take 5) = some server ∧
      server.sessions.keys = [lit "a", lit "c"] ∧ Isolated tenUnits server := by
  obtain ⟨server, found⟩ := Option.isSome_iff_exists.mp (show
    ((Machine.run (@step Nat basicUnicode tenUnits) .initial (busySession.take 5)).filter
      fun server => server.sessions.keys = [lit "a", lit "c"]).isSome = true by decide +kernel)
  obtain ⟨ran, kept⟩ := Option.filter_eq_some_iff.mp found
  exact ⟨server, ran, of_decide_eq_true kept,
    @sessions_isolated Nat basicUnicode _ server (busySession.take 5) (by decide) ran⟩

theorem sessions_kept_two : ∃ server : Server Nat,
    Machine.run (@step Nat basicUnicode tenUnits) .initial busySession = some server ∧
      server.sessions.keys = [lit "a", lit "d"] ∧ server.status 0 1 = .holding ∧ server.Keeps := by
  obtain ⟨server, found⟩ := Option.isSome_iff_exists.mp (show
    ((Machine.run (@step Nat basicUnicode tenUnits) .initial busySession).filter fun server =>
      server.sessions.keys = [lit "a", lit "d"] ∧ server.status 0 1 = .holding).isSome = true by
      decide +kernel)
  obtain ⟨ran, held⟩ := Option.filter_eq_some_iff.mp found
  obtain ⟨names, holding⟩ := of_decide_eq_true held
  exact ⟨server, ran, names, holding,
    @sessions_kept Nat basicUnicode _ server busySession (by decide +kernel) ran⟩

end VllmVerifier.CustomerService.Sessions
