/-
What a sign-in that fails leaves behind: everything but the state of the status,
which is `connecting` or `expired` afterwards.
-/
import CybexOS.Hermes.RemoteAuth

namespace CybexOS

namespace Hermes

namespace Auth

/-- The answer to a sign-in that takes the password. -/
def Answer.admits : Answer → Bool
  | .response status (some body) => status ≠ 429 && success status && body.ok
  | _ => false

/-- The answer to a probe that finds a session. -/
def Answer.connects : Answer → Bool
  | .response status (some body) => success status &&
      match body.authEnabled, body.loggedIn with
      | some authEnabled, some loggedIn => !authEnabled || loggedIn
      | _, _ => false
  | _ => false

/-- The session and the state of its status are the same. -/
structure Unchanged (a b : Auth) : Prop where
  baseUrl : b.baseUrl = a.baseUrl
  cookies : b.jars b.jar = a.jars a.jar
  source : b.source = a.source
  file : b.file = a.file
  state : b.status.state = a.status.state

section

variable (normalizeRemoteUrl : Text → Except Text Text)

/-- The URL is refused before anything is changed. -/
def Refused (url : Option Text) : Prop :=
  ∃ text message, url = some text ∧ text ≠ [] ∧ normalizeRemoteUrl text = .error message

/-- The password is sent to the origin. -/
def Sent (url password : Option Text) (baseUrl : Text) : Prop :=
  (∃ text bytes, password = some text ∧ text ≠ [] ∧ Utf8.encode text = some bytes ∧
    bytes.length ≤ 65536) ∧
  ∃ text, url = some text ∧ normalizeRemoteUrl text = .ok baseUrl

/-- The origin of the session, or of a bridge without one, asks for a sign-in. -/
def Rejected (a : Auth) (url password : Option Text) (posted : Answer) : Prop :=
  ∃ baseUrl code, Sent normalizeRemoteUrl url password baseUrl ∧ posted = .challenged code ∧
    (baseUrl = a.baseUrl ∨ a.baseUrl = [])

/-- The origin accepts the sign-in, which can then only fail to be saved. -/
def Accepted (url password : Option Text) (posted probed : Answer) (baseUrl : Text) : Prop :=
  Sent normalizeRemoteUrl url password baseUrl ∧ posted.admits = true ∧ probed.connects = true

/-- The failed sign-in leaves the state of the status as it was. -/
def Harmless (a : Auth) (url password : Option Text) (posted probed : Answer)
    (cookies : List Cookie) : Prop :=
  Refused normalizeRemoteUrl url ∨
    (a.status.state = .connecting ∧ ¬ Rejected normalizeRemoteUrl a url password posted ∧
      ∀ baseUrl, ¬ Accepted normalizeRemoteUrl url password posted probed baseUrl) ∨
    (a.status.state = .expired ∧ Rejected normalizeRemoteUrl a url password posted) ∨
    (a.status.state = .connected ∧ a.source = .persisted ∧ cookies = a.jars a.jar ∧
      Accepted normalizeRemoteUrl url password posted probed a.baseUrl)

variable {normalizeRemoteUrl} {hostOf : Text → Text}

/-! ### Steps of a sign-in -/

theorem probeBase_connected (a : Auth) (baseUrl : Text) (configured : Bool) (source : Source)
    (answer : Answer) :
    (a.probeBase baseUrl configured source answer).state = .connected ↔ answer.connects = true := by
  cases answer with
  | response status body =>
      unfold probeBase Answer.connects
      cases hsuccess : success status with
      | false => cases body <;> simp [hsuccess, makeStatus]
      | true =>
          cases body with
          | none => simp [hsuccess, makeStatus]
          | some body =>
              cases hauth : body.authEnabled with
              | none => simp [hsuccess, hauth, makeStatus]
              | some authEnabled =>
                  cases hlogged : body.loggedIn with
                  | none => simp [hsuccess, hauth, hlogged, makeStatus]
                  | some loggedIn =>
                      cases authEnabled <;> cases loggedIn <;>
                        simp [hsuccess, hauth, hlogged, makeStatus]
  | _ => simp [probeBase, Answer.connects, makeStatus]

theorem connectingStatus_ok {a b : Auth} {url : Option Text}
    (h : a.connectingStatus normalizeRemoteUrl url = .ok b) :
    ∃ status, b = { a with status := status } ∧ status.state = .connecting := by
  unfold connectingStatus at h
  cases hdisplay : a.displayUrl normalizeRemoteUrl url with
  | error message =>
      rw [hdisplay] at h
      cases h
  | ok display =>
      rw [hdisplay] at h
      exact ⟨_, (Except.ok.inj h).symm, rfl⟩

theorem connectingStatus_error {a : Auth} {url : Option Text} {message : Text}
    (h : a.connectingStatus normalizeRemoteUrl url = .error message) :
    Refused normalizeRemoteUrl url := by
  unfold connectingStatus at h
  match url with
  | none => cases h
  | some [] => cases h
  | some (first :: rest) =>
      cases hnormal : normalizeRemoteUrl (first :: rest) with
      | error message => exact ⟨_, message, rfl, List.cons_ne_nil _ _, hnormal⟩
      | ok display =>
          change Except.map _ (normalizeRemoteUrl (first :: rest)) = _ at h
          rw [hnormal] at h
          cases h

/-- The three ways in which a sign-in can end. -/
theorem endLogin_cases (a : Auth) (baseUrl : Text) (jar : Nat) (posted probed : Answer)
    (written : Bool) :
    (∃ code status, posted = .challenged code ∧ status.state = .expired ∧
      (a.endLogin hostOf baseUrl jar posted probed written).1 =
        if baseUrl = a.baseUrl ∨ a.baseUrl = [] then { a with status := status } else a) ∨
    ((posted.admits = true ∧ probed.connects = true) ∧
      a.endLogin hostOf baseUrl jar posted probed written =
        a.install hostOf baseUrl jar (a.probeBase baseUrl true .persisted probed) written) ∨
    ((∀ code, posted ≠ .challenged code) ∧ ¬ (posted.admits = true ∧ probed.connects = true) ∧
      (a.endLogin hostOf baseUrl jar posted probed written).1 = a) := by
  cases posted with
  | challenged code => exact Or.inl ⟨code, _, rfl, rfl, rfl⟩
  | redirected => exact Or.inr (Or.inr ⟨nofun, nofun, rfl⟩)
  | unreachable => exact Or.inr (Or.inr ⟨nofun, nofun, rfl⟩)
  | fault message => exact Or.inr (Or.inr ⟨nofun, nofun, rfl⟩)
  | response code body =>
      refine Or.inr ?_
      unfold endLogin
      dsimp only
      by_cases hlimit : code = 429
      · refine Or.inr ⟨nofun, fun h => ?_, by rw [if_pos hlimit]⟩
        exact absurd h.1 (by cases body <;> simp [Answer.admits, hlimit])
      · rw [if_neg hlimit]
        cases hsuccess : success code with
        | false =>
            refine Or.inr ⟨nofun, fun h => ?_, rfl⟩
            exact absurd h.1 (by cases body <;> simp [Answer.admits, hsuccess])
        | true =>
            cases body with
            | none => exact Or.inr ⟨nofun, nofun, rfl⟩
            | some body =>
                cases hok : body.ok with
                | false =>
                    refine Or.inr ⟨nofun, fun h => ?_, by simp [hok]⟩
                    exact absurd h.1 (by simp [Answer.admits, hok])
                | true =>
                    by_cases hprobe : (a.probeBase baseUrl true .persisted probed).state = .connected
                    · refine Or.inl ⟨⟨by simp [Answer.admits, hlimit, hsuccess, hok],
                        (probeBase_connected ..).mp hprobe⟩, ?_⟩
                      simp [hok, hprobe]
                    · refine Or.inr ⟨nofun, fun h => hprobe ((probeBase_connected ..).mpr h.2), ?_⟩
                      simp [hok, hprobe]

theorem Sent.eq {url password : Option Text} {first second : Text}
    (hfirst : Sent normalizeRemoteUrl url password first)
    (hsecond : Sent normalizeRemoteUrl url password second) : first = second := by
  obtain ⟨-, text, htext, hnormal⟩ := hfirst
  obtain ⟨-, other, hother, hnormal'⟩ := hsecond
  obtain rfl := Option.some.inj (htext.symm.trans hother)
  exact Except.ok.inj (hnormal.symm.trans hnormal')

/-- Where a sign-in stops: at its URL, at its password, or at its exchange. -/
theorem remoteLogin_cases (a : Auth) (url password : Option Text) (posted probed : Answer)
    (cookies : List Cookie) (written : Bool) :
    (Refused normalizeRemoteUrl url ∧ (a.remoteLogin normalizeRemoteUrl hostOf url password posted
        probed cookies written).1 = a) ∨
    ∃ status, status.state = .connecting ∧ ¬ Refused normalizeRemoteUrl url ∧
      (((∀ baseUrl, ¬ Sent normalizeRemoteUrl url password baseUrl) ∧
        (a.remoteLogin normalizeRemoteUrl hostOf url password posted probed cookies written).1 =
          { a with status := status }) ∨
      ∃ baseUrl, Sent normalizeRemoteUrl url password baseUrl ∧
        a.remoteLogin normalizeRemoteUrl hostOf url password posted probed cookies written =
          Auth.endLogin hostOf { a with
            status := status, jars := Function.update a.jars a.made cookies, made := a.made + 1 }
            baseUrl a.made posted probed written) := by
  unfold remoteLogin
  cases hconnecting : a.connectingStatus normalizeRemoteUrl url with
  | error message => exact Or.inl ⟨connectingStatus_error hconnecting, rfl⟩
  | ok connecting =>
      obtain ⟨status, rfl, hstate⟩ := connectingStatus_ok hconnecting
      have hopen : ¬ Refused normalizeRemoteUrl url := by
        rintro ⟨text, message, rfl, hne, hnormal⟩
        obtain ⟨first, rest, rfl⟩ := List.exists_cons_of_ne_nil hne
        unfold connectingStatus at hconnecting
        change Except.map _ (normalizeRemoteUrl (first :: rest)) = _ at hconnecting
        rw [hnormal] at hconnecting
        cases hconnecting
      refine Or.inr ⟨status, hstate, hopen, ?_⟩
      dsimp only
      cases hpassword : password.getD [] with
      | nil =>
          refine Or.inl ⟨fun baseUrl hsent => ?_, rfl⟩
          obtain ⟨⟨text, -, rfl, hne, -⟩, -⟩ := hsent
          exact hne hpassword
      | cons first rest =>
          dsimp only
          cases hencode : Utf8.encode (first :: rest) with
          | none =>
              refine Or.inl ⟨fun baseUrl hsent => ?_, rfl⟩
              obtain ⟨⟨text, bytes, rfl, -, hbytes, -⟩, -⟩ := hsent
              rw [show text = first :: rest from hpassword, hencode] at hbytes
              cases hbytes
          | some bytes =>
              dsimp only
              split_ifs with hlarge
              · refine Or.inl ⟨fun baseUrl hsent => ?_, rfl⟩
                obtain ⟨⟨text, other, rfl, -, hbytes, hsmall⟩, -⟩ := hsent
                rw [show text = first :: rest from hpassword, hencode] at hbytes
                obtain rfl := Option.some.inj hbytes
                exact absurd hlarge (Nat.not_lt.mpr hsmall)
              · cases url with
                | none =>
                    refine Or.inl ⟨fun baseUrl hsent => ?_, rfl⟩
                    obtain ⟨-, text, htext, -⟩ := hsent
                    cases htext
                | some text =>
                    cases hnormal : normalizeRemoteUrl text with
                    | error message =>
                        refine Or.inl ⟨fun baseUrl hsent => ?_, ?_⟩
                        · obtain ⟨-, other, hother, hok⟩ := hsent
                          obtain rfl := Option.some.inj hother
                          cases hnormal.symm.trans hok
                        · simp [hnormal]
                    | ok baseUrl =>
                        refine Or.inr ⟨baseUrl, ⟨⟨first :: rest, bytes, ?_, List.cons_ne_nil _ _,
                          hencode, Nat.not_lt.mp hlarge⟩, text, rfl, hnormal⟩, ?_⟩
                        · cases password with
                          | none => cases hpassword
                          | some given => exact congrArg some hpassword
                        · simp [hnormal]

/-! ### What is left -/

theorem unchanged_status {a : Auth} (hjar : a.jar < a.made) {status : Status}
    (cookies : List Cookie) : Unchanged a { a with
      status := status, jars := Function.update a.jars a.made cookies, made := a.made + 1 } ↔
        status.state = a.status.state := by
  constructor
  · exact fun h => h.state
  · intro h
    exact ⟨rfl, Function.update_of_ne (Nat.ne_of_lt hjar) _ _, rfl, rfl, h⟩

/-- A sign-in that was not accepted and not rejected leaves `connecting`. -/
theorem harmless_connecting {a : Auth} {url password : Option Text} {posted probed : Answer}
    {cookies : List Cookie} (hopen : ¬ Refused normalizeRemoteUrl url)
    (hrejected : ¬ Rejected normalizeRemoteUrl a url password posted)
    (haccepted : ∀ baseUrl, ¬ Accepted normalizeRemoteUrl url password posted probed baseUrl) :
    Harmless normalizeRemoteUrl a url password posted probed cookies ↔
      a.status.state = .connecting := by
  constructor
  · rintro (hrefused | ⟨hstate, -⟩ | ⟨-, hreject⟩ | ⟨-, -, -, haccept⟩)
    · exact absurd hrefused hopen
    · exact hstate
    · exact absurd hreject hrejected
    · exact absurd haccept (haccepted _)
  · exact fun hstate => Or.inr (Or.inl ⟨hstate, hrejected, haccepted⟩)

/-- A bridge that is signed in to `https://a`. -/
def signedIn : Auth :=
  { opened (List.drop 8) [] (some ⟨ascii "https://a", []⟩) 0 with
    status := { (opened (List.drop 8) [] none 0).status with state := .connected } }

end

end Auth

end Hermes

end CybexOS
