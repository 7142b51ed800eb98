import ChannelWire.Frontend.Dashboard

/-!
# Answers to old requests

A call of `refreshStats`, `loadHistory` or `loadDirectHistory` keeps the access token it was made
with, and the session may have changed when it goes on.  `refreshStats` compares the two tokens after
each body and not before it signs out, and the other two never compare them.

`settle_cases` says what an answer to an old token can do: it signs out the new session, replaces its
lines by the history of the old one or adds the last line of a caller (`Leaked`); every other answer
leaves the dashboard as it is, but for the line with the last error (`Untouched`).
-/

namespace ChannelWire
namespace Frontend

open Gateway (PyStr py)

/-! ## The error of a response -/

/-- An entry of `loc`. -/
inductive Location where
  | name (name : PyStr)
  | index (index : ℤ)
  deriving DecidableEq

/-- The type `ValidationIssue`. -/
structure ValidationIssue where
  type : Option PyStr
  loc : Option (List Location)
  deriving DecidableEq

/-- `detail` of an error body. -/
inductive Detail where
  | text (detail : PyStr)
  | issues (issues : List ValidationIssue)
  | missing
  deriving DecidableEq

/-- What the error body is: JSON, or not. -/
inductive ErrorBody where
  | json (detail : Detail)
  | text (text : PyStr)
  deriving DecidableEq

/-- The texts that `responseError` replaces. -/
def friendlyDetails : List (String × String) :=
  [("invalid username or password", "Username or password is incorrect."),
    ("username already exists",
      "That username is already registered. Sign in or choose another."),
    ("dev token disabled", "Developer sign-in is unavailable."),
    ("invalid token", "Your session has expired. Sign in again."),
    ("invalid token subject", "Your session has expired. Sign in again."),
    ("missing token", "Your session has expired. Sign in again.")]

/-- `responseError`; `text` is trimmed already. -/
def responseError : ErrorBody → PyStr
  | .text text => if text = [] then py "Something went wrong. Please try again." else text
  | .json (.text detail) =>
    ((friendlyDetails.find? fun entry => detail = py entry.1).map fun entry =>
      py entry.2).getD detail
  | .json .missing => py "Something went wrong. Please try again."
  | .json (.issues issues) =>
    let issue := issues.head?
    let field := issue.bind fun issue => issue.loc.bind List.getLast?
    if field = some (.name (py "password")) ∧
        (issue.bind ValidationIssue.type) = some (py "string_too_short") then
      py "Password must be at least 8 characters."
    else if field = some (.name (py "username")) then
      py "Enter a valid username using letters, numbers, periods, underscores, or hyphens."
    else py "Something went wrong. Please try again."

/-! ## Answers -/

/-- How a wait ends. -/
inductive Reply where
  /-- `fetch` or `json` throws, or the history body has no `messages`. -/
  | rejected (message : PyStr)
  | response (status : ℕ)
  | platformStats (body : Option PlatformStats)
  | coreStats (body : Option CoreStats)
  /-- `body.channels`, which may throw. -/
  | channels (body : Except PyStr (List PersistedChannel))
  | history (body : List HistoryItem)
  | errorBody (body : ErrorBody)

/-- `response.ok`. -/
def isOk (status : ℕ) : Bool := 200 ≤ status && status ≤ 299

/-- The line of an entry of a history. -/
def historyLine (kind : LineKind) (channel : Option PyStr) (item : HistoryItem) : ChatLine :=
  ⟨kind, channel, some item.sender, item.text⟩

namespace Dashboard

/-- `refreshStats`, from the end of a wait to the next one or to its end. -/
def resumeStats (d : Dashboard) (n : ℕ) (accessToken : PyStr) (caller : Caller) :
    StatsWait → Reply → Option Dashboard
  | _, .rejected message => some (d.returned accessToken caller (.error message))
  | .stats, .response status =>
    if status = 401 ∨ status = 403 then some (d.logout.returned accessToken caller (.ok false))
    else if isOk status = false then some (d.returned accessToken caller (.ok false))
    else some (d.await n ⟨accessToken, .refreshStats caller .statsBody⟩)
  | .statsBody, .platformStats nextPlatformStats =>
    if d.tokenRef ≠ accessToken then some (d.returned accessToken caller (.ok false))
    else some (({ d with platformStats := nextPlatformStats }).await n
      ⟨accessToken, .refreshStats caller (.coreStats nextPlatformStats)⟩)
  | .coreStats nextPlatformStats, .response status =>
    if isOk status = false then some (d.await n ⟨accessToken, .refreshStats caller .channels⟩)
    else some (d.await n ⟨accessToken, .refreshStats caller (.coreStatsBody nextPlatformStats)⟩)
  | .coreStatsBody nextPlatformStats, .coreStats nextCoreStats =>
    if d.tokenRef ≠ accessToken then some (d.returned accessToken caller (.ok false))
    else
      let d := { d with coreStats := nextCoreStats }
      let d := match nextPlatformStats, nextCoreStats with
        | some platform, some core => d.recordMonitorSample platform core
        | _, _ => d
      some (d.await n ⟨accessToken, .refreshStats caller .channels⟩)
  | .channels, .response status =>
    if isOk status = false then some (d.returned accessToken caller (.ok true))
    else some (d.await n ⟨accessToken, .refreshStats caller .channelsBody⟩)
  | .channelsBody, .channels body =>
    if d.tokenRef ≠ accessToken then some (d.returned accessToken caller (.ok false))
    else
      match body with
      | .error message => some (d.returned accessToken caller (.error message))
      | .ok channels =>
        some (({ d with persistedChannels := channels }).returned accessToken caller (.ok true))
  | _, _ => none

/-- `loadHistory` and `loadDirectHistory`. -/
def resumeLines (d : Dashboard) (n : ℕ) (token : PyStr) (kind : LineKind)
    (channel : Option PyStr) : HistoryWait → Reply → Option Dashboard
  | _, .rejected _ => some d
  | .history, .response status =>
    if isOk status = false then some (d.await n ⟨token, .loadLines kind channel .historyError⟩)
    else some (d.await n ⟨token, .loadLines kind channel .historyBody⟩)
  | .historyError, .errorBody body => some (d.setError (responseError body))
  | .historyBody, .history body =>
    some (d.replaceMessages (body.map (historyLine kind channel)))
  | _, _ => none

/-- The wait of call `n` ends; nothing happens if this is not how such a wait ends. -/
def settle (d : Dashboard) (n : ℕ) (reply : Reply) : Option Dashboard :=
  (d.calls[n]?.join).bind fun call =>
    let d := { d with calls := d.calls.set n none }
    match call.waiting with
    | .refreshStats caller wait => d.resumeStats n call.token caller wait reply
    | .loadLines kind channel wait => d.resumeLines n call.token kind channel wait reply

end Dashboard

/-! ## Runs -/

/-- What can happen.  The tokens of a call and of a message are those of an earlier rendering. -/
inductive Event where
  | startSession (accessToken signedInUsername : PyStr)
  | logout
  | refreshStats (accessToken : PyStr) (caller : Caller)
  | loadHistory (token channel : PyStr)
  | loadDirectHistory (token dmTo : PyStr)
  | settle (n : ℕ) (reply : Reply)
  | message (token : PyStr) (ws : ℕ) (event : GatewayEvent)
  | opened (ws : ℕ)
  | closed (ws : ℕ)
  /-- A socket has an error, and is closed. -/
  | failed (ws : ℕ)
  /-- A timer fires. -/
  | reconnect (timer : ℕ)

/-- What an event does. -/
def Dashboard.step (d : Dashboard) : Event → Option Dashboard
  | .startSession accessToken signedInUsername =>
    some (d.startSession accessToken signedInUsername)
  | .logout => some d.logout
  | .refreshStats accessToken caller => some (d.refreshStats accessToken caller)
  | .loadHistory token channel => some (d.loadHistory token channel)
  | .loadDirectHistory token dmTo => some (d.loadDirectHistory token dmTo)
  | .settle n reply => d.settle n reply
  | .message token ws event => some (d.handleGatewayEvent token (some ws) event)
  | .opened ws => some (d.onopen ws)
  | .closed ws => some (d.onclose ws)
  | .failed ws => some (d.close (some ws))
  | .reconnect timer =>
    if timer ∈ d.timers then
      some (({ d with timers := d.timers.erase timer }).connect d.tokenRef)
    else none

/-- A sequence of events. -/
def Dashboard.run (d : Dashboard) : List Event → Option Dashboard
  | [] => some d
  | e :: es => (d.step e).bind fun d => d.run es

/-! ## Answers to old tokens -/

/-- The two dashboards differ in their calls and in the last error, and in nothing else. -/
def Untouched (d d' : Dashboard) : Prop :=
  d' = { d with calls := d'.calls, error := d'.error }

/-- The token of call `n` is not the current one. -/
def Dashboard.Stale (d : Dashboard) (n : ℕ) : Prop :=
  ∃ call ∈ d.calls[n]?.join, d.tokenRef ≠ call.token

/-- The gateway refuses the token. -/
def StatsWait.signsOut : StatsWait → Reply → Bool
  | .stats, .response status => status == 401 || status == 403
  | _, _ => false

/-- How `refreshStats` ends on an answer to an old token, if it does. -/
def StatsWait.outcome : StatsWait → Reply → Option (Except PyStr Bool)
  | _, .rejected message => some (.error message)
  | .stats, .response status => if isOk status = false then some (.ok false) else none
  | .channels, .response status => if isOk status = false then some (.ok true) else none
  | .statsBody, .platformStats _ | .coreStatsBody _, .coreStats _ | .channelsBody, .channels _ =>
    some (.ok false)
  | _, _ => none

/-- The caller adds a line when `refreshStats` ends. -/
def Caller.addsLine : Caller → Except PyStr Bool → Bool
  | .authenticate _, _ | .slash, .ok _ => true
  | _, _ => false

/-- The rows of a history have come. -/
def HistoryWait.shows : HistoryWait → Reply → Bool
  | .historyBody, .history _ => true
  | _, _ => false

/-- The answer to an old token is one that the dashboard does not stop. -/
def Call.leaks (call : Call) (reply : Reply) : Bool :=
  match call.waiting with
  | .refreshStats caller wait =>
    wait.signsOut reply || (wait.outcome reply).any caller.addsLine
  | .loadLines _ _ wait => wait.shows reply

/-- What such an answer does: the session is over, the lines are those of the old history, or there
is a new line. -/
inductive Leaked (d d' : Dashboard) : Reply → Prop where
  | signedOut (status : ℕ) : d'.token = [] → d'.tokenRef = [] → d'.storedSession = none →
      Leaked d d' (.response status)
  | shown (kind : LineKind) (channel : Option PyStr) (body : List HistoryItem) :
      d'.messages = lastOf messageLimit (body.map (historyLine kind channel)) →
      Leaked d d' (.history body)
  | added (text : PyStr) (reply : Reply) :
      d'.messages = lastOf (messageLimit - 1) d.messages ++ [⟨.status, none, none, text⟩] →
      Leaked d d' reply

variable {d d' : Dashboard} {n : ℕ} {accessToken : PyStr} {caller : Caller} {reply : Reply}

theorem Untouched.returned {outcome : Except PyStr Bool} (h : d.tokenRef ≠ accessToken)
    (hline : caller.addsLine outcome = false) :
    Untouched d (d.returned accessToken caller outcome) := by
  cases caller with
  | handler => rfl
  | button => cases outcome <;> rfl
  | slash =>
    cases outcome with
    | error message => rfl
    | ok valid => cases hline
  | createToken =>
    rw [Dashboard.returned, if_neg h]
    rfl
  | authenticate line => cases hline
  | restore =>
    cases outcome with
    | error message => rfl
    | ok valid =>
      cases valid with
      | false => rfl
      | true =>
        rw [Dashboard.returned, if_neg h]
        rfl

theorem logout_session (d : Dashboard) : d.logout.tokenRef = [] ∧ d.logout.storedSession = none := by
  have hclose : ∀ (d : Dashboard) (socket : Option ℕ), (d.close socket).tokenRef = d.tokenRef ∧
      (d.close socket).storedSession = d.storedSession := by
    intro d socket
    cases socket <;> exact ⟨rfl, rfl⟩
  have hquit : ∀ (d : Dashboard) (socket : Option ℕ) (open' : Bool),
      (if open' = true then d.sendOn socket .quit else d).tokenRef = d.tokenRef ∧
      (if open' = true then d.sendOn socket .quit else d).storedSession = d.storedSession := by
    intro d socket open'
    cases open' <;> cases socket <;> exact ⟨rfl, rfl⟩
  unfold Dashboard.logout
  exact ⟨(hclose _ _).1.trans (hquit _ _ _).1, (hclose _ _).2.trans (hquit _ _ _).2⟩

theorem returned_session (d : Dashboard) (accessToken : PyStr) (caller : Caller)
    (outcome : Except PyStr Bool) :
    (d.returned accessToken caller outcome).token = d.token ∧
      (d.returned accessToken caller outcome).tokenRef = d.tokenRef ∧
      (d.returned accessToken caller outcome).storedSession = d.storedSession := by
  have hconnect : (d.connect accessToken).token = d.token ∧
      (d.connect accessToken).tokenRef = d.tokenRef ∧
      (d.connect accessToken).storedSession = d.storedSession := by
    unfold Dashboard.connect
    split_ifs <;> exact ⟨rfl, rfl, rfl⟩
  unfold Dashboard.returned
  split <;> first | exact ⟨rfl, rfl, rfl⟩ | (split_ifs <;> first | exact hconnect | exact ⟨rfl, rfl, rfl⟩)

theorem returned_messages {outcome : Except PyStr Bool} (h : d.tokenRef ≠ accessToken)
    (hline : caller.addsLine outcome = true) : ∃ text,
      (d.returned accessToken caller outcome).messages =
        lastOf (messageLimit - 1) d.messages ++ [⟨.status, none, none, text⟩] := by
  cases caller with
  | slash =>
    cases outcome with
    | error message => cases hline
    | ok valid => exact ⟨_, rfl⟩
  | authenticate line =>
    refine ⟨line, ?_⟩
    rw [Dashboard.returned, if_neg h]
    rfl
  | handler | button | createToken | restore => cases hline

/-- **What `refreshStats` does on an answer to an old token**: it signs out, ends or waits on. -/
theorem resumeStats_of_ne {wait : StatsWait} (h : d.tokenRef ≠ accessToken)
    (hresume : d.resumeStats n accessToken caller wait reply = some d') :
    wait.signsOut reply = true ∧ d' = d.logout.returned accessToken caller (.ok false) ∨
      wait.signsOut reply = false ∧
        ((∃ outcome ∈ wait.outcome reply, d' = d.returned accessToken caller outcome) ∨
          wait.outcome reply = none ∧ ∃ call, d' = d.await n call) := by
  cases reply with
  | rejected message =>
    refine .inr ?_
    cases wait <;> exact ⟨rfl, .inl ⟨_, rfl, (Option.some.inj hresume).symm⟩⟩
  | response status =>
    cases wait with
    | stats =>
      simp only [Dashboard.resumeStats] at hresume
      split_ifs at hresume with hrefused hok
      · exact .inl ⟨by simpa [StatsWait.signsOut] using hrefused, (Option.some.inj hresume).symm⟩
      · refine .inr ⟨by simpa [StatsWait.signsOut] using hrefused, .inl ⟨_, if_pos hok, ?_⟩⟩
        exact (Option.some.inj hresume).symm
      · exact .inr ⟨by simpa [StatsWait.signsOut] using hrefused,
          .inr ⟨if_neg hok, _, (Option.some.inj hresume).symm⟩⟩
    | coreStats platform =>
      simp only [Dashboard.resumeStats] at hresume
      split_ifs at hresume
      · exact .inr ⟨rfl, .inr ⟨rfl, _, (Option.some.inj hresume).symm⟩⟩
      · exact .inr ⟨rfl, .inr ⟨rfl, _, (Option.some.inj hresume).symm⟩⟩
    | channels =>
      simp only [Dashboard.resumeStats] at hresume
      split_ifs at hresume with hok
      · exact .inr ⟨rfl, .inl ⟨_, if_pos hok, (Option.some.inj hresume).symm⟩⟩
      · exact .inr ⟨rfl, .inr ⟨if_neg hok, _, (Option.some.inj hresume).symm⟩⟩
    | statsBody | coreStatsBody _ | channelsBody => cases hresume
  | platformStats body =>
    cases wait with
    | statsBody =>
      rw [Dashboard.resumeStats, if_pos h] at hresume
      exact .inr ⟨rfl, .inl ⟨_, rfl, (Option.some.inj hresume).symm⟩⟩
    | _ => cases hresume
  | coreStats body =>
    cases wait with
    | coreStatsBody platform =>
      rw [Dashboard.resumeStats, if_pos h] at hresume
      exact .inr ⟨rfl, .inl ⟨_, rfl, (Option.some.inj hresume).symm⟩⟩
    | _ => cases hresume
  | channels body =>
    cases wait with
    | channelsBody =>
      change (if d.tokenRef ≠ accessToken then _ else _) = _ at hresume
      rw [if_pos h] at hresume
      exact .inr ⟨rfl, .inl ⟨_, rfl, (Option.some.inj hresume).symm⟩⟩
    | _ => cases hresume
  | history _ | errorBody _ => cases wait <;> cases hresume

/-- **What `loadHistory` does on an answer**: the rows are shown, whatever the token is. -/
theorem resumeLines_cases {wait : HistoryWait} {kind : LineKind} {channel : Option PyStr}
    (hresume : d.resumeLines n accessToken kind channel wait reply = some d') :
    (∃ body, wait.shows reply = true ∧ reply = .history body ∧
      d' = d.replaceMessages (body.map (historyLine kind channel))) ∨
      wait.shows reply = false ∧ Untouched d d' := by
  cases reply with
  | rejected message =>
    refine .inr ?_
    cases wait <;> obtain rfl := Option.some.inj hresume <;> exact ⟨rfl, rfl⟩
  | response status =>
    cases wait with
    | history =>
      rw [Dashboard.resumeLines] at hresume
      split_ifs at hresume <;> obtain rfl := Option.some.inj hresume <;> exact .inr ⟨rfl, rfl⟩
    | historyBody | historyError => cases hresume
  | history body =>
    cases wait with
    | historyBody => exact .inl ⟨body, rfl, rfl, (Option.some.inj hresume).symm⟩
    | history | historyError => cases hresume
  | errorBody body =>
    cases wait with
    | historyError =>
      obtain rfl := Option.some.inj hresume
      exact .inr ⟨rfl, rfl⟩
    | history | historyBody => cases hresume
  | platformStats _ | coreStats _ | channels _ => cases wait <;> cases hresume

/-- **One answer to an old token.**  It changes nothing but the calls and the last error, or it is
one that leaks. -/
theorem settle_cases (hstale : d.Stale n) (h : d.settle n reply = some d') :
    ∃ call ∈ d.calls[n]?.join, call.leaks reply = false ∧ Untouched d d' ∨
      call.leaks reply = true ∧ Leaked d d' reply := by
  obtain ⟨call, hcall, hne⟩ := hstale
  refine ⟨call, hcall, ?_⟩
  rw [Dashboard.settle, hcall, Option.bind_some] at h
  simp only at h
  cases hwaiting : call.waiting with
  | refreshStats caller wait =>
    rw [hwaiting] at h
    rw [Call.leaks, hwaiting]
    simp only
    rcases resumeStats_of_ne (d := { d with calls := d.calls.set n none }) hne h with
      ⟨hout, rfl⟩ | ⟨hout, ⟨outcome, houtcome, rfl⟩ | ⟨hnone, call', rfl⟩⟩
    · rw [hout, Bool.true_or]
      obtain ⟨status, rfl⟩ : ∃ status, reply = .response status := by
        cases wait <;> cases reply <;> first | exact ⟨_, rfl⟩ | cases hout
      obtain ⟨htoken, htokenRef, hstored⟩ := returned_session
        (Dashboard.logout { d with calls := d.calls.set n none }) call.token caller (.ok false)
      obtain ⟨href, hnone⟩ := logout_session { d with calls := d.calls.set n none }
      exact .inr ⟨rfl, .signedOut status htoken (htokenRef.trans href) (hstored.trans hnone)⟩
    · rw [hout, Bool.false_or, houtcome, Option.any_some]
      cases hline : caller.addsLine outcome with
      | false => exact .inl ⟨rfl, .returned (d := { d with calls := d.calls.set n none }) hne hline⟩
      | true =>
        obtain ⟨text, htext⟩ := returned_messages (d := { d with calls := d.calls.set n none })
          hne hline
        exact .inr ⟨rfl, .added text reply htext⟩
    · rw [hout, hnone]
      exact .inl ⟨rfl, rfl⟩
  | loadLines kind channel wait =>
    rw [hwaiting] at h
    rw [Call.leaks, hwaiting]
    simp only
    rcases resumeLines_cases h with ⟨body, hshows, rfl, rfl⟩ | ⟨hshows, huntouched⟩
    · rw [hshows]
      exact .inr ⟨rfl, .shown kind channel body rfl⟩
    · rw [hshows]
      exact .inl ⟨rfl, huntouched⟩

/-! ## Runs with old answers -/

/-- In the run `es` from `d₀` call `n` gets an answer in `d` although its token is old. -/
structure OldReply (d₀ : Dashboard) (es : List Event) (d : Dashboard) (n : ℕ) (reply : Reply)
    (d' : Dashboard) : Prop where
  happens : ∃ earlier later, es = earlier ++ .settle n reply :: later ∧ d₀.run earlier = some d
  settled : d.settle n reply = some d'
  stale : d.Stale n

/-- The answer to call `n` is one that leaks. -/
def Dashboard.leaks (d : Dashboard) (n : ℕ) (reply : Reply) : Bool :=
  d.calls[n]?.join.any (·.leaks reply)

/-- **What answers to old tokens do.**  In every run from any dashboard: if no answer to an old token
leaks, then none of them changes anything but the calls and the last error.  Any that leaks signs
out, shows the old history or adds a line. -/
theorem old_replies_untouched (d₀ : Dashboard) (es : List Event) :
    ((∀ d n reply d', OldReply d₀ es d n reply d' → d.leaks n reply = false) →
      ∀ d n reply d', OldReply d₀ es d n reply d' → Untouched d d') ∧
    ∀ d n reply d', OldReply d₀ es d n reply d' → d.leaks n reply = true → Leaked d d' reply := by
  have hcases : ∀ {d n reply d'}, OldReply d₀ es d n reply d' →
      d.leaks n reply = false ∧ Untouched d d' ∨ d.leaks n reply = true ∧ Leaked d d' reply := by
    intro d n reply d' h
    obtain ⟨call, hcall, hor⟩ := settle_cases h.stale h.settled
    have hleaks : d.leaks n reply = call.leaks reply := by
      rw [Dashboard.leaks, hcall, Option.any_some]
    rwa [hleaks]
  refine ⟨fun hquiet d n reply d' h => ?_, fun d n reply d' h hleaks => ?_⟩
  · rcases hcases h with ⟨-, huntouched⟩ | ⟨hleaks, -⟩
    · exact huntouched
    · rw [hquiet d n reply d' h] at hleaks
      cases hleaks
  · rcases hcases h with ⟨hquiet, -⟩ | ⟨-, hleaked⟩
    · rw [hleaks] at hquiet
      cases hquiet
    · exact hleaked

/-! ## Three runs -/

/-- `alice` makes a request and signs out, and `bob` signs in. -/
def afterAlice (request : Event) : List Event :=
  [.startSession (py "a") (py "alice"), request, .logout, .startSession (py "b") (py "bob")]

/-- The dashboard `bob` sees then. -/
def bobDashboard (request : Event) : Dashboard :=
  ((Dashboard.initial.run (afterAlice request)).getD .initial)

theorem run_afterAlice (request : Event) (h : (Dashboard.initial.run (afterAlice request)).isSome) :
    Dashboard.initial.run (afterAlice request) = some (bobDashboard request) := by
  rw [bobDashboard]
  cases hrun : Dashboard.initial.run (afterAlice request) with
  | none =>
    rw [hrun] at h
    cases h
  | some d => rfl

/-- The statistics of `alice` come, status and body, and go nowhere. -/
theorem old_replies_untouched_stats : ∃ d d',
    Dashboard.initial.run (afterAlice (.refreshStats (py "a") .button) ++
      [.settle 0 (.response 200)]) = some d ∧
    d.settle 0 (.platformStats (some ⟨2, 1, 1, 3, 2, 1⟩)) = some d' ∧ Untouched d d' := by
  let request : Event := .refreshStats (py "a") .button
  let status : Event := .settle 0 (.response 200)
  let body : Event := .settle 0 (.platformStats (some ⟨2, 1, 1, 3, 2, 1⟩))
  obtain ⟨d, hd⟩ : ∃ d, Dashboard.initial.run (afterAlice request ++ [status]) = some d := ⟨_, rfl⟩
  obtain ⟨d', hd'⟩ : ∃ d', d.settle 0 (.platformStats (some ⟨2, 1, 1, 3, 2, 1⟩)) = some d' := by
    obtain rfl := Option.some.inj hd
    exact ⟨_, rfl⟩
  have hold : OldReply .initial (afterAlice request ++ [status, body]) d 0
      (.platformStats (some ⟨2, 1, 1, 3, 2, 1⟩)) d' := by
    refine ⟨⟨afterAlice request ++ [status], [], rfl, hd⟩, hd', ?_⟩
    obtain rfl := Option.some.inj hd
    exact ⟨_, rfl, by decide⟩
  refine ⟨d, d', hd, hd', (old_replies_untouched _ _).1 ?_ _ _ _ _ hold⟩
  rintro e n reply e' ⟨⟨earlier, later, hes, hrun⟩, -, -⟩
  -- the last two events are the only answers
  obtain ⟨rfl, hlast⟩ | ⟨rfl, hlast⟩ : (earlier = afterAlice request ∧ .settle n reply = status) ∨
      (earlier = afterAlice request ++ [status] ∧ .settle n reply = body) := by
    rcases earlier with _ | ⟨e₁, _ | ⟨e₂, _ | ⟨e₃, _ | ⟨e₄, _ | ⟨e₅, _ | ⟨e₆, earlier⟩⟩⟩⟩⟩⟩ <;>
      simp_all [afterAlice, request]
  · obtain ⟨rfl, rfl⟩ := Event.settle.inj hlast
    obtain rfl := Option.some.inj hrun
    rfl
  · obtain ⟨rfl, rfl⟩ := Event.settle.inj hlast
    obtain rfl := Option.some.inj hrun
    rfl

/-- The token of `alice` has expired: `bob` is signed out.  Her history comes: `bob` reads it. -/
theorem old_answers_leak :
    (∃ es d d', OldReply .initial es d 0 (.response 401) d' ∧ d.tokenRef = py "b" ∧
      d'.tokenRef = []) ∧
    ∃ es d reply d', OldReply .initial es d 0 reply d' ∧ d.tokenRef = py "b" ∧ d.messages = [] ∧
      d'.messages = [⟨.chat, some (py "general"), some (py "carol"), py "secret"⟩] := by
  constructor
  · refine ⟨afterAlice (.refreshStats (py "a") .button) ++ [.settle 0 (.response 401)],
      bobDashboard (.refreshStats (py "a") .button), _,
      ⟨⟨_, [], rfl, run_afterAlice _ rfl⟩, rfl, ⟨_, rfl, by decide⟩⟩, rfl, rfl⟩
  · let d := bobDashboard (.loadHistory (py "a") (py "general"))
    refine ⟨afterAlice (.loadHistory (py "a") (py "general")) ++ [.settle 0 (.response 200),
        .settle 0 (.history [⟨py "carol", py "secret"⟩])],
      d.await 0 ⟨py "a", .loadLines .chat (some (py "general")) .historyBody⟩,
      .history [⟨py "carol", py "secret"⟩], _,
      ⟨⟨afterAlice (.loadHistory (py "a") (py "general")) ++ [.settle 0 (.response 200)], [],
        rfl, rfl⟩, rfl, ⟨_, rfl, by decide⟩⟩, rfl, rfl, rfl⟩

end Frontend
end ChannelWire
