import ThinrAgent.Auth.DeviceFlow

/-!
# `ThinrAgent.Proofs.DeviceFlow`: does the poll slow down?

`asked` says when the poll should stop: at an answer that is neither `authorization_pending` nor
`slow_down`, or at a late check. The loop asks exactly these requests, and it succeeds exactly at a
response that carries a token. `Spaced` says that before every request but the first the loop has
slept for the interval and five seconds more for every `slow_down` so far.

The loop sleeps five seconds after a `slow_down` instead of the interval, and forgets it afterwards.
So the requests are spaced exactly when `Gentle` holds of the answers (`pollRight_iff`). With a
positive interval no `slow_down` may be followed by another request (`gentle_iff`).
-/

set_option autoImplicit false

namespace ThinrAgent

section Answers
variable (lib : JsonText)

/-- The error that a response with the status 400 names in its text, if it names one. -/
def tokenError : HttpAnswer → Option String
  | .ok response =>
    if response.statusCode = 400 then
      match lib.parse response.body with
      | some j => (j.value Json.getString "error" "").toOption
      | none => none
    else none
  | .error _ => none

/-- The answer says that the user has not decided yet. -/
def isPending (a : HttpAnswer) : Bool := tokenError lib a = some "authorization_pending"

/-- The answer asks for more time between the requests. -/
def isSlowDown (a : HttpAnswer) : Bool := tokenError lib a = some "slow_down"

/-- The token that a response with the status 200 carries, if it carries one. -/
def carriedToken : HttpAnswer → Option String
  | .ok response =>
    if response.statusCode = 200 then
      match lib.parse response.body with
      | some j =>
        match j.find "access_token" with
        | some (.str accessToken) => some accessToken
        | _ => none
      | none => none
    else none
  | .error _ => none

/-- The answers up to the one that ends the poll, or up to a late check. -/
def asked (p : PollRequest) : List PollRound → List HttpAnswer
  | [] => []
  | r :: rs =>
    if r.late p then []
    else
      r.answer p :: if isPending lib (r.answer p) || isSlowDown lib (r.answer p) then asked p rs
        else []

/-- The number of answers with the error `slow_down`, each of which the protocol wants to be
followed by a longer interval. -/
def slowDowns (answers : List HttpAnswer) : Nat := answers.countP (isSlowDown lib)

/-- The seconds that a poll should sleep after these answers: the interval, and five more for every
`slow_down` so far. -/
def requiredWait (p : PollRequest) (answers : List HttpAnswer) : Int :=
  p.interval.toInt + 5 * slowDowns lib answers

/-- Before every request but the first, the sleeps since the one before it are long enough. -/
def Spaced (p : PollRequest) (seen : List HttpAnswer) (slept : Int) : List TokenEvent → Prop
  | [] => True
  | .sleep seconds :: events => Spaced p seen (slept + max seconds 0) events
  | .request a :: events =>
    (seen ≠ [] → requiredWait lib p seen ≤ slept) ∧ Spaced p (seen ++ [a]) 0 events

/-- The requests among the events of a poll, in their order, each with its answer. -/
def requests : List TokenEvent → List HttpAnswer
  | [] => []
  | .request a :: events => a :: requests events
  | .sleep _ :: events => requests events

/-- A poll that slows down, stops where it should, and succeeds with a token only. -/
structure PollRight (what : JsonMessages) (p : PollRequest) (rounds : List PollRound) : Prop where
  spaced : Spaced lib p [] 0 (pollDeviceToken lib what p rounds).1
  asks : requests (pollDeviceToken lib what p rounds).1 = asked lib p rounds
  stops : (pollDeviceToken lib what p rounds).2 = none ↔
    (asked lib p rounds).length = rounds.length ∧
      ∀ a ∈ asked lib p rounds, isPending lib a || isSlowDown lib a
  succeeds : ∀ token, (∃ result, (pollDeviceToken lib what p rounds).2 = some result ∧
      result.success = true ∧ result.accessToken = token) ↔
    ∃ a ∈ asked lib p rounds, carriedToken lib a = some token

/-- After an answer that another request follows, the sleep of the loop is long enough. `k` counts
the `slow_down` answers before. -/
def Gentle (p : PollRequest) (k : Nat) : List HttpAnswer → Prop
  | a :: b :: answers =>
    (if isSlowDown lib a then p.interval.toInt + 5 * (k + 1) ≤ 5
      else p.interval.toInt + 5 * k ≤ max p.interval.toInt 0) ∧
    Gentle p (if isSlowDown lib a then k + 1 else k) (b :: answers)
  | _ => True

end Answers

section Verdict
variable {lib : JsonText} {what : JsonMessages} {interval : Int32} {a : HttpAnswer}

/-- A response with the status 400 is judged by the error in its text alone, if it has one. -/
theorem tokenError_eq_of_rejectToken {response : HttpResponse} (h400 : response.statusCode = 400) :
    rejectToken lib interval response =
      match tokenError lib (.ok response) with
      | none => .finish (.failure .invalidResponse response.statusCode response.body)
      | some error =>
        if error = "authorization_pending" then .wait interval.toInt
        else if error = "slow_down" then .wait 5
        else if error = "access_denied" then
          .finish (.failure .userDenied response.statusCode "User denied the authorization request")
        else if error = "expired_token" then
          .finish (.failure .tokenExpired response.statusCode "Device code expired")
        else .finish (.failure .serverError response.statusCode ("OAuth error: " ++ error)) := by
  simp only [rejectToken, tokenError, if_pos h400]
  cases lib.parse response.body with
  | none => rfl
  | some j =>
    cases hvalue : j.value Json.getString "error" "" with
    | error e => simp only [hvalue]; rfl
    | ok error => simp only [hvalue]; rfl

/-- What the loop does with an answer: it sleeps, or it returns a result that is a success exactly
when there is a token. -/
inductive VerdictCases (lib : JsonText) (interval : Int32) (a : HttpAnswer) :
    PollVerdict → Prop where
  | pending (hpending : isPending lib a = true) (hslow : isSlowDown lib a = false)
      (htoken : carriedToken lib a = none) : VerdictCases lib interval a (.wait interval.toInt)
  | slowDown (hslow : isSlowDown lib a = true) (htoken : carriedToken lib a = none) :
      VerdictCases lib interval a (.wait 5)
  | finish (result : AuthResult) (hpending : isPending lib a = false)
      (hslow : isSlowDown lib a = false)
      (htoken : ∀ token, result.success = true ∧ result.accessToken = token ↔
        carriedToken lib a = some token) : VerdictCases lib interval a (.finish result)

/-- A response with the status 200 ends the login with the token that it carries, if it carries
one. -/
theorem acceptToken_iff {response : HttpResponse} (h200 : response.statusCode = 200)
    (token : String) :
    (acceptToken lib what response).success = true ∧
        (acceptToken lib what response).accessToken = token ↔
      carriedToken lib (.ok response) = some token := by
  simp only [acceptToken, carriedToken, if_pos h200]
  cases lib.parse response.body with
  | none => simp [AuthResult.failure]
  | some j =>
    cases hfind : j.find "access_token" with
    | none => simp [hfind, AuthResult.failure]
    | some entry => cases entry <;> simp [hfind, Json.getString, AuthResult.failure]

/-- The verdict about an answer: wait for the interval, wait for five seconds, or finish with
success exactly when there is a token. -/
theorem verdictCases (hsuccess : ∀ response, a = .ok response → response.success = true) :
    VerdictCases lib interval a (pollVerdict lib what interval a) := by
  cases a with
  | error e => exact .finish _ rfl rfl fun token => by simp [AuthResult.failure, carriedToken]
  | ok response =>
    have hmarked := hsuccess response rfl
    -- The order of the source: status 200, then 400 by its error text, then everything else.
    by_cases h200 : response.statusCode = 200
    · have herror : tokenError lib (.ok response) = none := by simp [tokenError, h200]
      rw [pollVerdict, if_pos ⟨hmarked, h200⟩]
      exact .finish _ (by simp [isPending, herror]) (by simp [isSlowDown, herror])
        (acceptToken_iff h200)
    · have htoken : carriedToken lib (.ok response) = none := by simp [carriedToken, h200]
      rw [pollVerdict, if_neg fun h => h200 h.2]
      by_cases h400 : response.statusCode = 400
      · rw [if_pos h400, tokenError_eq_of_rejectToken h400]
        cases herror : tokenError lib (.ok response) with
        | none =>
          exact .finish _ (by simp [isPending, herror]) (by simp [isSlowDown, herror])
            fun token => by simp [AuthResult.failure, htoken]
        | some error =>
          by_cases hpending : error = "authorization_pending"
          · simp only [if_pos hpending]
            exact .pending (by simp [isPending, herror, hpending])
              (by simp [isSlowDown, herror, hpending]) htoken
          · simp only [if_neg hpending]
            by_cases hslow : error = "slow_down"
            · simp only [if_pos hslow]
              exact .slowDown (by simp [isSlowDown, herror, hslow]) htoken
            · simp only [if_neg hslow]
              have hpending' : isPending lib (.ok response) = false := by
                simp [isPending, herror, hpending]
              have hslow' : isSlowDown lib (.ok response) = false := by
                simp [isSlowDown, herror, hslow]
              split
              · exact .finish _ hpending' hslow' fun token => by
                  simp [AuthResult.failure, htoken]
              · split
                · exact .finish _ hpending' hslow' fun token => by
                    simp [AuthResult.failure, htoken]
                · exact .finish _ hpending' hslow' fun token => by
                    simp [AuthResult.failure, htoken]
      · rw [if_neg h400]
        have herror : tokenError lib (.ok response) = none := by simp [tokenError, h400]
        exact .finish _ (by simp [isPending, herror]) (by simp [isSlowDown, herror])
          fun token => by simp [AuthResult.failure, htoken]

end Verdict

section Run
variable {lib : JsonText} {what : JsonMessages} {p : PollRequest}

/-- The response of a round is one that has arrived. A request that fails is an error and no
response. -/
theorem success_answer (p : PollRequest) (r : PollRound) :
    ∀ response, r.answer p = .ok response → response.success = true :=
  fun _ => success_makeHttpRequestFormWithFallback

/-- A round: the check is late, or the loop asks and sleeps, or it asks and returns. -/
inductive RoundCases (lib : JsonText) (what : JsonMessages) (p : PollRequest) (r : PollRound)
    (rs : List PollRound) : Prop where
  | late (result : AuthResult) (hfailure : result.success = false)
      (hpoll : pollDeviceToken lib what p (r :: rs) = ([], some result))
      (hasked : asked lib p (r :: rs) = [])
  | wait (a : HttpAnswer) (seconds : Int)
      (hpoll : pollDeviceToken lib what p (r :: rs) =
        (.request a :: .sleep seconds :: (pollDeviceToken lib what p rs).1,
          (pollDeviceToken lib what p rs).2))
      (hasked : asked lib p (r :: rs) = a :: asked lib p rs)
      (hwaits : (isPending lib a || isSlowDown lib a) = true) (htoken : carriedToken lib a = none)
      (hseconds : seconds = if isSlowDown lib a then 5 else p.interval.toInt)
  | finish (a : HttpAnswer) (result : AuthResult)
      (hpoll : pollDeviceToken lib what p (r :: rs) = ([.request a], some result))
      (hasked : asked lib p (r :: rs) = [a])
      (hends : (isPending lib a || isSlowDown lib a) = false)
      (htoken : ∀ token, result.success = true ∧ result.accessToken = token ↔
        carriedToken lib a = some token)

/-- A round is late, or it asks and waits, or it asks and finishes. -/
theorem roundCases (r : PollRound) (rs : List PollRound) : RoundCases lib what p r rs := by
  by_cases hlate : r.late p = true
  · exact .late _ rfl (by rw [pollDeviceToken, if_pos hlate]) (by rw [asked, if_pos hlate])
  · have hasked : asked lib p (r :: rs) = r.answer p ::
        if isPending lib (r.answer p) || isSlowDown lib (r.answer p) then asked lib p rs
        else [] := by
      rw [asked, if_neg hlate]
    have hwait (seconds : Int) (h : pollVerdict lib what p.interval (r.answer p) = .wait seconds) :
        pollDeviceToken lib what p (r :: rs) = (.request (r.answer p) :: .sleep seconds ::
          (pollDeviceToken lib what p rs).1, (pollDeviceToken lib what p rs).2) := by
      rw [pollDeviceToken, if_neg hlate]
      simp only [h]
    have hfinish (result : AuthResult)
        (h : pollVerdict lib what p.interval (r.answer p) = .finish result) :
        pollDeviceToken lib what p (r :: rs) = ([.request (r.answer p)], some result) := by
      rw [pollDeviceToken, if_neg hlate]
      simp only [h]
    have hcases : VerdictCases lib p.interval (r.answer p)
        (pollVerdict lib what p.interval (r.answer p)) := verdictCases (success_answer p r)
    generalize hverdict : pollVerdict lib what p.interval (r.answer p) = verdict at hcases
    -- The poll goes on at the two errors that ask it to wait, and so does `asked`.
    cases hcases with
    | pending hpending hslow htoken =>
      have hwaits : (isPending lib (r.answer p) || isSlowDown lib (r.answer p)) = true := by
        rw [hpending, Bool.true_or]
      exact .wait _ _ (hwait _ hverdict) (by rw [hasked, if_pos hwaits]) hwaits htoken
        (by rw [hslow, if_neg Bool.false_ne_true])
    | slowDown hslow htoken =>
      have hwaits : (isPending lib (r.answer p) || isSlowDown lib (r.answer p)) = true := by
        rw [hslow, Bool.or_true]
      exact .wait _ _ (hwait _ hverdict) (by rw [hasked, if_pos hwaits]) hwaits htoken
        (by rw [hslow, if_pos rfl])
    | finish result hpending hslow htoken =>
      have hends : (isPending lib (r.answer p) || isSlowDown lib (r.answer p)) = false := by
        rw [hpending, hslow, Bool.or_false]
      exact .finish _ result (hfinish _ hverdict)
        (by rw [hasked, hends, if_neg Bool.false_ne_true]) hends htoken

/-- The requests are those that should be asked. -/
theorem requests_pollDeviceToken (rounds : List PollRound) :
    requests (pollDeviceToken lib what p rounds).1 = asked lib p rounds := by
  induction rounds with
  | nil => rfl
  | cons r rs ih =>
    cases (roundCases r rs : RoundCases lib what p r rs) with
    | late result _ hpoll hasked => rw [hpoll, hasked, requests]
    | wait a seconds hpoll hasked _ _ _ => rw [hpoll, hasked, requests, requests, ih]
    | finish a result hpoll hasked _ _ => rw [hpoll, hasked, requests, requests]

/-- The loop goes on only while every answer lets it. -/
theorem result_eq_none_iff (rounds : List PollRound) :
    (pollDeviceToken lib what p rounds).2 = none ↔
      (asked lib p rounds).length = rounds.length ∧
        ∀ a ∈ asked lib p rounds, isPending lib a || isSlowDown lib a := by
  induction rounds with
  | nil => simp [pollDeviceToken, asked]
  | cons r rs ih =>
    cases (roundCases r rs : RoundCases lib what p r rs) with
    | late result _ hpoll hasked => simp [hpoll, hasked]
    | wait a seconds hpoll hasked hwaits _ _ =>
      rw [hpoll, hasked, List.length_cons, List.length_cons, List.forall_mem_cons, ih]
      simp [hwaits]
    | finish a result hpoll hasked hends _ =>
      rw [hpoll, hasked, List.forall_mem_singleton, hends]
      simp

/-- The result is a success with the token that an answer carries. -/
theorem succeeds_iff (rounds : List PollRound) (token : String) :
    (∃ result, (pollDeviceToken lib what p rounds).2 = some result ∧
        result.success = true ∧ result.accessToken = token) ↔
      ∃ a ∈ asked lib p rounds, carriedToken lib a = some token := by
  induction rounds with
  | nil => simp [pollDeviceToken, asked]
  | cons r rs ih =>
    cases (roundCases r rs : RoundCases lib what p r rs) with
    | late result hfailure hpoll hasked => simp [hpoll, hasked, hfailure]
    | wait a seconds hpoll hasked _ htoken _ => simp [hpoll, hasked, htoken, ih]
    | finish a result hpoll hasked _ htoken => simp [hpoll, hasked, htoken]

/-- One more answer counts when it is a `slow_down`. -/
theorem slowDowns_append (seen : List HttpAnswer) (a : HttpAnswer) :
    slowDowns lib (seen ++ [a]) =
      if isSlowDown lib a then slowDowns lib seen + 1 else slowDowns lib seen := by
  rw [slowDowns, List.countP_append, List.countP_singleton]
  cases isSlowDown lib a <;> rfl

/-- The rounds behind an answer are spaced exactly when the answers are gentle. -/
theorem spaced_iff_after (rounds : List PollRound) (seen : List HttpAnswer) (a : HttpAnswer)
    (seconds : Int) (hseconds : seconds = if isSlowDown lib a then 5 else p.interval.toInt) :
    Spaced lib p (seen ++ [a]) (0 + max seconds 0) (pollDeviceToken lib what p rounds).1 ↔
      Gentle lib p (slowDowns lib seen) (a :: asked lib p rounds) := by
  -- The induction is on the rounds. What was slept counts from the answer before.
  induction rounds generalizing seen a seconds with
  | nil => simp [pollDeviceToken, asked, Spaced, Gentle]
  | cons r rs ih =>
    -- The time since the answer is one sleep, so the requirement is about the answer.
    have hrequired : requiredWait lib p (seen ++ [a]) ≤ 0 + max seconds 0 ↔
        if isSlowDown lib a then p.interval.toInt + 5 * (slowDowns lib seen + 1) ≤ 5
        else p.interval.toInt + 5 * slowDowns lib seen ≤ max p.interval.toInt 0 := by
      rw [requiredWait, slowDowns_append, hseconds]
      cases isSlowDown lib a <;> simp
    have hne : seen ++ [a] ≠ [] := List.append_ne_nil_of_right_ne_nil _ (List.cons_ne_nil _ _)
    cases (roundCases r rs : RoundCases lib what p r rs) with
    | late result _ hpoll hasked => simp [hpoll, hasked, Spaced, Gentle]
    | wait b seconds' hpoll hasked _ _ hseconds' =>
      rw [hpoll, hasked]
      simp only [Spaced, Gentle]
      rw [ih (seen ++ [a]) b seconds' hseconds', slowDowns_append, hrequired]
      simp only [hne, ne_eq, not_false_eq_true, forall_true_left]
    | finish b result hpoll hasked _ _ =>
      rw [hpoll, hasked]
      simp only [Spaced, Gentle, and_true]
      rw [hrequired]
      simp only [hne, ne_eq, not_false_eq_true, forall_true_left]

/-- From the start of the poll, the requests are spaced exactly when the answers are gentle. -/
theorem spaced_iff (rounds : List PollRound) :
    Spaced lib p [] 0 (pollDeviceToken lib what p rounds).1 ↔
      Gentle lib p 0 (asked lib p rounds) := by
  cases rounds with
  | nil => simp [pollDeviceToken, asked, Spaced, Gentle]
  | cons r rs =>
    cases (roundCases r rs : RoundCases lib what p r rs) with
    | late result _ hpoll hasked => simp [hpoll, hasked, Spaced, Gentle]
    | wait a seconds hpoll hasked _ _ hseconds =>
      rw [hpoll, hasked]
      simp only [Spaced, ne_eq, not_true_eq_false, false_implies, true_and]
      exact spaced_iff_after rs [] a seconds hseconds
    | finish a result hpoll hasked _ _ => simp [hpoll, hasked, Spaced, Gentle]

/-- The poll slows down, stops and succeeds as it should exactly when its answers are gentle, which
is that no answer asks for a longer pause than the loop makes anyway. Where it stops and whether it
succeeds is right in every case. -/
theorem pollRight_iff (lib : JsonText) (what : JsonMessages) (p : PollRequest)
    (rounds : List PollRound) :
    PollRight lib what p rounds ↔ Gentle lib p 0 (asked lib p rounds) := by
  constructor
  · intro h
    exact (spaced_iff rounds).mp h.spaced
  · intro h
    exact ⟨(spaced_iff rounds).mpr h, requests_pollDeviceToken rounds, result_eq_none_iff rounds,
      succeeds_iff rounds⟩

/-- With a positive interval, no `slow_down` may be followed by another request. -/
theorem gentle_iff (hinterval : 0 < p.interval.toInt) (answers : List HttpAnswer) :
    Gentle lib p 0 answers ↔ ∀ a ∈ answers.dropLast, isSlowDown lib a = false := by
  induction answers with
  | nil => simp [Gentle]
  | cons a answers ih =>
    cases answers with
    | nil => simp [Gentle]
    | cons b answers =>
      rw [Gentle, List.dropLast_cons_of_ne_nil (List.cons_ne_nil b answers), List.forall_mem_cons]
      cases hslow : isSlowDown lib a with
      | true =>
        simp only [if_true, Bool.true_eq_false, false_and, iff_false, not_and]
        intro hwait
        omega
      | false =>
        simp only [Bool.false_eq_true, if_false, true_and]
        rw [ih]
        constructor
        · exact And.right
        · intro h
          exact ⟨by omega, h⟩

end Run

section Sample

/-- A round in which the endpoint answers with an error. -/
def sampleRound (error : String) : PollRound where
  elapsed := 0
  client _ := .ok { statusCode := 400, body := "\x7b\"error\":\"" ++ error ++ "\"\x7d" }

/-- The poll of the samples, with the interval and the timeout of the defaults. -/
def sampleTokenPoll : PollRequest := { host := "acme.thinr.io", clientId := [], deviceCode := [] }

/-- The texts of the JSON errors, which the poll only passes on. -/
def sampleMessages : JsonMessages := ⟨fun _ => "parse error", fun _ => "type error"⟩

/-- After a `slow_down` the loop sleeps five seconds instead of ten. -/
theorem not_pollRight_sample : ¬ PollRight JsonText.compact sampleMessages sampleTokenPoll
    [sampleRound "slow_down", sampleRound "authorization_pending"] := by
  intro h
  have hasked : asked JsonText.compact sampleTokenPoll
      [sampleRound "slow_down", sampleRound "authorization_pending"] =
        [(sampleRound "slow_down").answer sampleTokenPoll,
          (sampleRound "authorization_pending").answer sampleTokenPoll] := by decide +kernel
  have hgentle := (spaced_iff _).mp h.spaced
  rw [hasked, gentle_iff (by decide)] at hgentle
  have hslow := hgentle _ List.mem_cons_self
  revert hslow
  decide +kernel

end Sample

end ThinrAgent
