/-
Exchanges that end after their session was replaced leave the new one alone, as
long as they are no sign-outs and no challenged sign-ins to the new one's origin.
-/
import CybexOS.Hermes.SignIn

namespace CybexOS

namespace Hermes

namespace Auth

/-- An exchange with a jar of its own. -/
def Exchange.Own : Exchange → Prop
  | .login .. => True
  | .probe _ _ isCurrent _ => isCurrent = false
  | _ => False

/-- The session, its file and its status are the same. -/
structure Same (a b : Auth) : Prop where
  baseUrl : b.baseUrl = a.baseUrl
  jar : b.jar = a.jar
  cookies : b.jars b.jar = a.jars a.jar
  source : b.source = a.source
  file : b.file = a.file
  status : b.status = a.status

/-- The cookies that have not expired. -/
def live (now : Nat) (cookies : List Cookie) : List Cookie :=
  cookies.filter fun cookie => ¬ expired now cookie

section

variable (normalizeRemoteUrl : Text → Except Text Text) (hostOf : Text → Text)

/-- The file describes the persisted session, and there is none without one. -/
def Described (a : Auth) : Prop :=
  if a.source = .persisted ∧ a.baseUrl ≠ [] then
    ∃ saved ∈ a.file, saved.baseUrl = a.baseUrl ∧
      live a.now saved.cookies = cookieRows hostOf a.now a.baseUrl (a.jars a.jar)
  else a.file = none

instance (a : Auth) : Decidable (a.Described hostOf) :=
  inferInstanceAs (Decidable (if a.source = .persisted ∧ a.baseUrl ≠ [] then
    ∃ saved ∈ a.file, saved.baseUrl = a.baseUrl ∧
      live a.now saved.cookies = cookieRows hostOf a.now a.baseUrl (a.jars a.jar)
    else a.file = none))

/-- The exchange was begun under the current session. -/
def Current (a : Auth) (exchange : Exchange) : Prop := exchange.begun = (a.baseUrl, a.jar)

/-- A sign-in that installs its own session. -/
def SignsIn (b : Auth) : Exchange → Prop
  | .login baseUrl jar _ _ => b.baseUrl = baseUrl ∧ b.jar = jar
  | _ => False

/-- Only exchanges of the current session change it, and sign-ins their own. -/
def Respects (a : Auth) (move : Move) : Prop :=
  match move with
  | .sets index _ | .ends index _ => ∀ exchange ∈ a.exchanges[index]?,
      Same a (a.step normalizeRemoteUrl hostOf move) ∨ a.Current exchange ∨
        SignsIn (a.step normalizeRemoteUrl hostOf move) exchange
  | _ => True

/-- The end of the exchange meets the session that it is about, and the file can
be changed. -/
def FitEnd (a : Auth) : Exchange → Ending → Prop
  | .request .., .request _ written | .probe .., .probe _ written => written = true
  | .logout baseUrl jar, .logout _ deleted => a.Current (.logout baseUrl jar) ∧ deleted = true
  | .login baseUrl jar begunUrl begunJar, .login posted _ written => written = true ∧
      ((∃ code, posted = .challenged code) → baseUrl = a.baseUrl ∨ a.baseUrl = [] →
        a.Current (.login baseUrl jar begunUrl begunJar))
  | _, _ => True

/-- No late sign-out or challenged sign-in, and no cookies that are not saved. -/
def Fit (a : Auth) : Move → Prop
  | .sets index cookies => ∀ exchange ∈ a.exchanges[index]?, exchange.jar = a.jar →
      a.source = .persisted → cookieRows hostOf a.now a.baseUrl cookies =
        cookieRows hostOf a.now a.baseUrl (a.jars a.jar)
  | .ends index ending => ∀ exchange ∈ a.exchanges[index]?, a.FitEnd exchange ending
  | _ => True

end

/-! ### Jars -/

/-- Two exchanges do not share a jar that one of them owns. -/
def Apart (e f : Exchange) : Prop := e.Own ∨ f.Own → e.jar ≠ f.jar

/-- Jars are made once, and an exchange with the current jar is of the current
session. -/
structure Tidy (a : Auth) : Prop where
  jar : a.jar < a.made
  jars : ∀ exchange ∈ a.exchanges, exchange.jar < a.made
  apart : a.exchanges.Pairwise Apart
  current : ∀ exchange ∈ a.exchanges, exchange.jar = a.jar →
    ¬ exchange.Own ∧ a.Current exchange

theorem Apart.symm {e f : Exchange} (h : Apart e f) : Apart f e :=
  fun hown => (h hown.symm).symm

theorem begun_of_not_own {exchange : Exchange} (h : ¬ exchange.Own) :
    exchange.begun.2 = exchange.jar := by
  cases exchange with
  | login => exact absurd trivial h
  | _ => rfl

/-- An exchange that ended is apart from those that are left. -/
theorem apart_of_mem_eraseIdx {exchanges : List Exchange} (h : exchanges.Pairwise Apart)
    {index : Nat} {exchange : Exchange} (hexchange : exchanges[index]? = some exchange)
    {other : Exchange} (hother : other ∈ exchanges.eraseIdx index) : Apart exchange other := by
  obtain ⟨hindex, rfl⟩ := List.getElem?_eq_some_iff.mp hexchange
  have hperm := List.getElem_cons_eraseIdx_perm hindex
  have hcons := (hperm.pairwise_iff fun h => Apart.symm h).mpr h
  exact (List.pairwise_cons.mp hcons).1 other hother

theorem Tidy.of_kept {a b : Auth} (h : a.Tidy) (hjar : b.jar = a.jar) (hmade : b.made = a.made)
    (hurl : b.baseUrl = a.baseUrl) (hexchanges : b.exchanges = a.exchanges) : b.Tidy where
  jar := by
    rw [hjar, hmade]
    exact h.jar
  jars := by
    rw [hexchanges, hmade]
    exact h.jars
  apart := by
    rw [hexchanges]
    exact h.apart
  current := by
    unfold Current
    rw [hexchanges, hjar, hurl]
    exact h.current

/-- A jar that was just made is the jar of no exchange. -/
theorem Tidy.of_renewed {a b : Auth} (h : a.Tidy) (hjar : b.jar = a.made)
    (hmade : b.made = a.made + 1) (hexchanges : b.exchanges = a.exchanges) : b.Tidy where
  jar := by
    rw [hjar, hmade]
    exact Nat.lt_succ_self _
  jars := by
    rw [hexchanges, hmade]
    exact fun exchange hexchange => (h.jars exchange hexchange).trans (Nat.lt_succ_self _)
  apart := by
    rw [hexchanges]
    exact h.apart
  current := by
    rw [hexchanges, hjar]
    exact fun exchange hexchange hsame =>
      absurd hsame (Nat.ne_of_lt (h.jars exchange hexchange))

theorem Tidy.erase {a : Auth} (h : a.Tidy) (index : Nat) :
    Tidy { a with exchanges := a.exchanges.eraseIdx index } where
  jar := h.jar
  jars := fun exchange hexchange => h.jars exchange (List.mem_of_mem_eraseIdx hexchange)
  apart := h.apart.sublist (List.eraseIdx_sublist _ _)
  current := fun exchange hexchange => h.current exchange (List.mem_of_mem_eraseIdx hexchange)

theorem Tidy.withExchange {a : Auth} (h : a.Tidy) {exchange : Exchange} (hown : ¬ exchange.Own)
    (hcurrent : a.Current exchange) : (a.withExchange exchange).Tidy := by
  have hjar : exchange.jar = a.jar := by
    rw [← begun_of_not_own hown, hcurrent]
  refine ⟨h.jar, fun other hother => ?_, ?_, fun other hother hsame => ?_⟩
  · rcases List.mem_append.mp hother with hold | hnew
    · exact h.jars other hold
    · rw [List.mem_singleton.mp hnew, hjar]
      exact h.jar
  · refine List.pairwise_append.mpr ⟨h.apart, List.pairwise_singleton _ _, ?_⟩
    intro other hother last hlast howner hshared
    rw [List.mem_singleton.mp hlast] at howner hshared
    exact (h.current other hother (hshared.trans hjar)).1 (howner.resolve_right hown)
  · rcases List.mem_append.mp hother with hold | hnew
    · exact h.current other hold hsame
    · rw [List.mem_singleton.mp hnew]
      exact ⟨hown, hcurrent⟩

theorem Tidy.withJar {a : Auth} (h : a.Tidy) {exchange : Nat → Exchange}
    (hjar : (exchange a.made).jar = a.made) : (a.withJar exchange).Tidy := by
  refine ⟨h.jar.trans (Nat.lt_succ_self _), fun other hother => ?_, ?_, fun other hother hsame => ?_⟩
  · rcases List.mem_append.mp hother with hold | hnew
    · exact (h.jars other hold).trans (Nat.lt_succ_self _)
    · rw [List.mem_singleton.mp hnew, hjar]
      exact Nat.lt_succ_self _
  · refine List.pairwise_append.mpr ⟨h.apart, List.pairwise_singleton _ _, ?_⟩
    intro other hother last hlast _ hshared
    rw [List.mem_singleton.mp hlast, hjar] at hshared
    exact absurd hshared (Nat.ne_of_lt (h.jars other hother))
  · rcases List.mem_append.mp hother with hold | hnew
    · exact h.current other hold hsame
    · rw [List.mem_singleton.mp hnew, hjar] at hsame
      exact absurd hsame (Nat.ne_of_gt h.jar)

/-! ### The file -/

section

variable {hostOf : Text → Text}

theorem live_cookieRows {earlier now : Nat} (h : earlier ≤ now) (baseUrl : Text)
    (cookies : List Cookie) : live now (cookieRows hostOf earlier baseUrl cookies) =
      cookieRows hostOf now baseUrl cookies := by
  unfold live cookieRows
  rw [List.filter_map, List.filter_filter]
  refine congrArg _ (List.filter_congr fun cookie _ => ?_)
  have hexpired : expired earlier cookie = true → expired now cookie = true := by
    unfold expired
    cases cookie.expires with
    | none => exact id
    | some time => exact fun hpast => decide_eq_true ((of_decide_eq_true hpast).trans h)
  have hsame : expired now { cookie with
      domain := hostOf baseUrl, path := if cookie.path = [] then [47] else cookie.path } =
      expired now cookie := rfl
  rw [Function.comp_apply, hsame]
  cases hnow : expired now cookie with
  | true => simp
  | false =>
      have hbefore : expired earlier cookie = false := by
        by_contra hpast
        rw [hexpired (Bool.not_eq_false _ ▸ hpast)] at hnow
        cases hnow
      simp [hbefore]

theorem live_live {earlier now : Nat} (h : earlier ≤ now) (cookies : List Cookie) :
    live now (live earlier cookies) = live now cookies := by
  unfold live
  rw [List.filter_filter]
  refine List.filter_congr fun cookie _ => ?_
  unfold expired
  cases cookie.expires with
  | none => rfl
  | some time =>
      by_cases hpast : time ≤ now
      · simp [hpast]
      · have hbefore : ¬ time ≤ earlier := fun hearly => hpast (hearly.trans h)
        simp [hpast, hbefore]

/-- What is described stays described while the session is the same. -/
theorem Described.of_same {a b : Auth} (h : a.Described hostOf) (hsource : b.source = a.source)
    (hurl : b.baseUrl = a.baseUrl) (hfile : b.file = a.file) (hnow : b.now = a.now)
    (hcookies : a.source = .persisted → cookieRows hostOf a.now a.baseUrl (b.jars b.jar) =
      cookieRows hostOf a.now a.baseUrl (a.jars a.jar)) : b.Described hostOf := by
  unfold Described at h ⊢
  rw [hsource, hurl, hfile, hnow]
  split_ifs at h ⊢ with hpersisted
  · rw [hcookies hpersisted.1]
    exact h
  · exact h

/-- The jar of the session is not the one that is made. -/
theorem Described.of_made {a : Auth} (h : a.Described hostOf) (hjar : a.jar < a.made)
    {exchange : Nat → Exchange} : (a.withJar exchange).Described hostOf := by
  refine h.of_same rfl rfl rfl rfl fun _ => ?_
  change cookieRows hostOf a.now a.baseUrl (Function.update a.jars a.made [] a.jar) = _
  rw [Function.update_of_ne (Nat.ne_of_lt hjar)]

theorem Described.ticks {a : Auth} (h : a.Described hostOf) :
    Described hostOf { a with now := a.now + 1 } := by
  unfold Described at h ⊢
  dsimp only
  split_ifs at h ⊢
  · obtain ⟨saved, hsaved, hurl, hrows⟩ := h
    refine ⟨saved, hsaved, hurl, ?_⟩
    rw [← live_live (Nat.le_succ a.now), hrows, live_cookieRows (Nat.le_succ a.now)]
  · exact h

/-- A session whose cookies were dropped, with its file. -/
def cleared (a : Auth) : Auth :=
  { a.newJar with
    file := if a.source = .persisted then if a.baseUrl = [] then none else some ⟨a.baseUrl, []⟩
      else a.file }

theorem dropCookies_written (a : Auth) : a.dropCookies hostOf true = some a.cleared := by
  have hempty : a.newJar.jars a.newJar.jar = [] := Function.update_self _ _ _
  unfold dropCookies
  split_ifs with hpersisted
  · unfold save cleared
    rw [if_pos rfl, hempty, if_pos hpersisted]
    rfl
  · unfold cleared
    rw [if_neg hpersisted]
    rfl

theorem Described.cleared {a : Auth} (h : a.Described hostOf) : a.cleared.Described hostOf := by
  have hempty : a.cleared.jars a.cleared.jar = [] := Function.update_self _ _ _
  unfold Described at h ⊢
  rw [hempty]
  change if a.source = .persisted ∧ a.baseUrl ≠ [] then ∃ saved ∈ a.cleared.file,
    saved.baseUrl = a.baseUrl ∧ live a.now saved.cookies = [] else a.cleared.file = none
  unfold Auth.cleared
  dsimp only
  by_cases hsource : a.source = .persisted
  · by_cases hurl : a.baseUrl = []
    · rw [if_neg fun hboth => hboth.2 hurl, if_pos hsource, if_pos hurl]
    · rw [if_pos ⟨hsource, hurl⟩, if_pos hsource, if_neg hurl]
      exact ⟨_, rfl, rfl, rfl⟩
  · rw [if_neg fun hboth => hsource hboth.1] at h ⊢
    rw [if_neg hsource]
    exact h

/-! ### Commits -/

/-- A session that was signed out, with some status. -/
def signedOut (a : Auth) (status : Status) : Auth :=
  { a.newJar with
    file := none, baseUrl := a.environmentUrl,
    source := if a.environmentUrl = [] then .none else .environment, status := status }

/-- A session that was signed in and saved, with some status. -/
def installed (hostOf : Text → Text) (a : Auth) (baseUrl : Text) (jar : Nat) (status : Status) :
    Auth :=
  { a with
    baseUrl := baseUrl, jar := jar, source := .persisted, status := status,
    file := if baseUrl = [] then none
      else some ⟨baseUrl, cookieRows hostOf a.now baseUrl (a.jars jar)⟩ }

/-- What a commit can do: nothing, something to the session of the exchange, or
install a session of its own. -/
inductive Committed (hostOf : Text → Text) (a : Auth) (exchange : Exchange) : Auth → Prop
  | nothing : Committed hostOf a exchange a
  | status (status : Status) (h : a.Current exchange) :
      Committed hostOf a exchange { a with status := status }
  | cleared (status : Status) (h : a.Current exchange) :
      Committed hostOf a exchange { a.cleared with status := status }
  | signedOut (status : Status) (h : a.Current exchange) :
      Committed hostOf a exchange (a.signedOut status)
  | installed (baseUrl begunUrl : Text) (jar begunJar : Nat) (status : Status)
      (h : exchange = .login baseUrl jar begunUrl begunJar) :
      Committed hostOf a exchange (a.installed hostOf baseUrl jar status)

theorem endRequest_committed (a : Auth) (baseUrl : Text) (jar : Nat) (answer : Answer) :
    Committed hostOf a (.request baseUrl jar) (a.endRequest hostOf baseUrl jar answer true) := by
  unfold endRequest
  cases answer.challenge with
  | none => exact .nothing
  | some status =>
      dsimp only
      split_ifs with hcurrent
      · unfold expireSession
        rw [dropCookies_written]
        exact .cleared _ (Prod.ext hcurrent.1.symm hcurrent.2.symm)
      · exact .nothing

theorem endProbe_committed (a : Auth) (baseUrl : Text) (jar : Nat) (isCurrent : Bool)
    (source : Source) (answer : Answer) :
    Committed hostOf a (.probe baseUrl jar isCurrent source)
      (a.endProbe hostOf baseUrl jar isCurrent source answer true) := by
  unfold endProbe
  dsimp only
  split_ifs with hstale hexpired
  · exact .nothing
  · rw [dropCookies_written]
    rw [not_or, not_or, not_not, not_not] at hstale
    exact .cleared _ (Prod.ext hstale.2.1.symm hstale.2.2.symm)
  · rw [not_or, not_or, not_not, not_not] at hstale
    exact .status _ (Prod.ext hstale.2.1.symm hstale.2.2.symm)

theorem endLogin_committed (a : Auth) {baseUrl begunUrl : Text} {jar begunJar : Nat}
    {posted : Answer} (probed : Answer)
    (h : (∃ code, posted = .challenged code) → baseUrl = a.baseUrl ∨ a.baseUrl = [] →
      a.Current (.login baseUrl jar begunUrl begunJar)) :
    Committed hostOf a (.login baseUrl jar begunUrl begunJar)
      (a.endLogin hostOf baseUrl jar posted probed true).1 := by
  rcases @endLogin_cases hostOf a baseUrl jar posted probed true with
    ⟨code, status, hposted, -, hleft⟩ | ⟨-, hinstall⟩ | ⟨-, -, hleft⟩
  · rw [hleft]
    split_ifs with hours
    · exact .status _ (h ⟨code, hposted⟩ hours)
    · exact .nothing
  · rw [hinstall]
    exact .installed baseUrl begunUrl jar begunJar _ rfl
  · rw [hleft]
    exact .nothing

/-- A commit that meets its session. -/
theorem commit_committed {a : Auth} {exchange : Exchange} {ending : Ending}
    (h : a.FitEnd exchange ending) :
    Committed hostOf a exchange (a.commit hostOf exchange ending) := by
  cases exchange with
  | request baseUrl jar =>
      cases ending with
      | request answer written =>
          obtain rfl : written = true := h
          exact endRequest_committed a baseUrl jar answer
      | _ => exact .nothing
  | logout baseUrl jar =>
      cases ending with
      | logout answer deleted =>
          obtain ⟨hcurrent, rfl⟩ : a.Current (.logout baseUrl jar) ∧ deleted = true := h
          exact .signedOut _ hcurrent
      | _ => exact .nothing
  | probe baseUrl jar isCurrent source =>
      cases ending with
      | probe answer written =>
          obtain rfl : written = true := h
          exact endProbe_committed a baseUrl jar isCurrent source answer
      | _ => exact .nothing
  | login baseUrl jar begunUrl begunJar =>
      cases ending with
      | login posted probed written =>
          obtain ⟨rfl, hmeets⟩ := h
          exact endLogin_committed a probed hmeets
      | _ => exact .nothing

theorem Described.committed {a b : Auth} {exchange : Exchange} (h : a.Described hostOf)
    (hcommit : Committed hostOf a exchange b) : b.Described hostOf := by
  cases hcommit with
  | nothing => exact h
  | status => exact h
  | cleared => exact h.cleared
  | signedOut status =>
      have hsource : (a.signedOut status).source ≠ .persisted := by
        unfold Auth.signedOut
        dsimp only
        split_ifs <;> nofun
      unfold Described
      rw [if_neg fun hboth => hsource hboth.1]
      rfl
  | installed baseUrl _ jar =>
      unfold Described Auth.installed
      dsimp only
      by_cases hurl : baseUrl = []
      · rw [if_neg fun hboth => hboth.2 hurl, if_pos hurl]
      · rw [if_pos ⟨rfl, hurl⟩, if_neg hurl]
        exact ⟨_, rfl, rfl, live_cookieRows (Nat.le_refl _) _ _⟩

/-- The exchange that commits is no longer under way. -/
theorem Tidy.committed {a b : Auth} {exchange : Exchange} (h : a.Tidy)
    (hjar : exchange.jar < a.made) (hapart : ∀ other ∈ a.exchanges, Apart exchange other)
    (hcommit : Committed hostOf a exchange b) : b.Tidy := by
  cases hcommit with
  | nothing => exact h
  | status => exact h.of_kept rfl rfl rfl rfl
  | cleared => exact h.of_renewed rfl rfl rfl
  | signedOut => exact h.of_renewed rfl rfl rfl
  | installed baseUrl begunUrl jar begunJar status hlogin =>
      subst hlogin
      refine ⟨hjar, h.jars, h.apart, fun other hother hsame => ?_⟩
      exact absurd hsame.symm (hapart other hother (Or.inl trivial))

/-- The session is that of the move, or it is left alone. -/
theorem Committed.respects {a b : Auth} {exchange : Exchange}
    (h : Committed hostOf a exchange b) :
    Same a b ∨ a.Current exchange ∨ SignsIn b exchange := by
  cases h with
  | nothing => exact Or.inl ⟨rfl, rfl, rfl, rfl, rfl, rfl⟩
  | status _ hcurrent => exact Or.inr (Or.inl hcurrent)
  | cleared _ hcurrent => exact Or.inr (Or.inl hcurrent)
  | signedOut _ hcurrent => exact Or.inr (Or.inl hcurrent)
  | installed _ _ _ _ _ hlogin =>
      subst hlogin
      exact Or.inr (Or.inr ⟨rfl, rfl⟩)

/-! ### Steps -/

variable {normalizeRemoteUrl : Text → Except Text Text}

/-- The manager is in order: its jars are, and its file describes its session. -/
structure Kept (hostOf : Text → Text) (a : Auth) : Prop where
  tidy : a.Tidy
  described : a.Described hostOf

/-- The end of an exchange, as a commit of the manager without it. -/
theorem ends_committed {a : Auth} {index : Nat} {ending : Ending} {exchange : Exchange}
    (hexchange : a.exchanges[index]? = some exchange) (h : a.FitEnd exchange ending) :
    a.step normalizeRemoteUrl hostOf (.ends index ending) = a ∨
      Committed hostOf { a with exchanges := a.exchanges.eraseIdx index } exchange
        (a.step normalizeRemoteUrl hostOf (.ends index ending)) := by
  unfold step
  dsimp only
  rw [hexchange]
  dsimp only
  split_ifs
  · exact Or.inr (commit_committed h)
  · exact Or.inl rfl

theorem Kept.beginProbe {a : Auth} (h : a.Kept hostOf) (url : Option Text) :
    (a.beginProbe normalizeRemoteUrl url).Kept hostOf := by
  have hstarts (source : Source) : (a.withExchange (.probe a.baseUrl a.jar true source)).Kept hostOf :=
    ⟨h.tidy.withExchange (fun hown => Bool.noConfusion hown) rfl, h.described⟩
  unfold Auth.beginProbe
  cases url.filter fun text => Displays.Py.strip text ≠ [] with
  | none =>
      dsimp only
      split_ifs
      · exact ⟨h.tidy.of_kept rfl rfl rfl rfl, h.described⟩
      · exact hstarts a.source
  | some text =>
      dsimp only
      cases normalizeRemoteUrl text with
      | error message => exact h
      | ok baseUrl =>
          dsimp only
          split_ifs with hsame
          · rw [hsame]
            exact hstarts a.source
          · exact ⟨h.tidy.withJar rfl, h.described.of_made h.tidy.jar⟩

theorem Kept.sets {a : Auth} (h : a.Kept hostOf) {index : Nat} {cookies : List Cookie}
    (hfit : a.Fit hostOf (.sets index cookies)) :
    (a.step normalizeRemoteUrl hostOf (.sets index cookies)).Kept hostOf := by
  unfold step
  dsimp only
  cases hexchange : a.exchanges[index]? with
  | none => exact h
  | some exchange =>
      refine ⟨h.tidy.of_kept rfl rfl rfl rfl, h.described.of_same rfl rfl rfl rfl fun hsource => ?_⟩
      change cookieRows hostOf a.now a.baseUrl
        (Function.update a.jars exchange.jar cookies a.jar) = _
      by_cases hjar : exchange.jar = a.jar
      · rw [hjar, Function.update_self]
        exact hfit exchange hexchange hjar hsource
      · rw [Function.update_of_ne (Ne.symm hjar)]

/-- A fit move keeps the manager in order. -/
theorem Kept.step {a : Auth} (h : a.Kept hostOf) {move : Move} (hfit : a.Fit hostOf move) :
    (a.step normalizeRemoteUrl hostOf move).Kept hostOf := by
  cases move with
  | connects url =>
      unfold Auth.step
      dsimp only
      cases hconnecting : a.connectingStatus normalizeRemoteUrl url with
      | error message => exact h
      | ok connecting =>
          obtain ⟨status, rfl, -⟩ := connectingStatus_ok hconnecting
          exact ⟨h.tidy.of_kept rfl rfl rfl rfl, h.described⟩
  | beginsRequest =>
      unfold Auth.step
      dsimp only
      split_ifs
      · exact h
      · exact ⟨h.tidy.withExchange id rfl, h.described⟩
  | beginsLogout => exact ⟨h.tidy.withExchange id rfl, h.described⟩
  | beginsProbe url => exact h.beginProbe url
  | beginsLogin url =>
      unfold Auth.step
      dsimp only
      split
      · exact ⟨h.tidy.withJar rfl, h.described.of_made h.tidy.jar⟩
      · exact h
  | sets index cookies => exact h.sets hfit
  | ends index ending =>
      cases hexchange : a.exchanges[index]? with
      | none =>
          unfold Auth.step
          dsimp only
          rw [hexchange]
          exact h
      | some exchange =>
          have hmember := List.mem_of_getElem? hexchange
          rcases @ends_committed hostOf normalizeRemoteUrl _ _ _ _
            hexchange (hfit exchange hexchange) with hsame | hcommit
          · rw [hsame]
            exact h
          · have hdescribed : Described hostOf { a with exchanges := a.exchanges.eraseIdx index } :=
              h.described
            refine ⟨(h.tidy.erase index).committed (h.tidy.jars exchange hmember) ?_ hcommit,
              hdescribed.committed hcommit⟩
            exact fun other hother => apart_of_mem_eraseIdx h.tidy.apart hexchange hother
  | ticks => exact ⟨h.tidy.of_kept rfl rfl rfl rfl, h.described.ticks⟩

theorem Kept.respects {a : Auth} (h : a.Kept hostOf) {move : Move} (hfit : a.Fit hostOf move) :
    a.Respects normalizeRemoteUrl hostOf move := by
  cases move with
  | sets index cookies =>
      intro exchange hexchange
      by_cases hjar : exchange.jar = a.jar
      · exact Or.inr (Or.inl (h.tidy.current exchange (List.mem_of_getElem? hexchange) hjar).2)
      · refine Or.inl ?_
        unfold Auth.step
        dsimp only
        rw [hexchange]
        exact ⟨rfl, rfl, Function.update_of_ne (Ne.symm hjar) _ _, rfl, rfl, rfl⟩
  | ends index ending =>
      intro exchange hexchange
      rcases @ends_committed hostOf normalizeRemoteUrl _ _ _ _
        hexchange (hfit exchange hexchange) with hsame | hcommit
      · rw [hsame]
        exact Or.inl ⟨rfl, rfl, rfl, rfl, rfl, rfl⟩
      · rcases hcommit.respects with hsame | hcurrent | hsigns
        · exact Or.inl ⟨hsame.baseUrl, hsame.jar, hsame.cookies, hsame.source, hsame.file,
            hsame.status⟩
        · exact Or.inr (Or.inl hcurrent)
        · exact Or.inr (Or.inr hsigns)
  | _ => trivial

/-! ### Runs -/

theorem opened_tidy (environmentUrl : Text) (file : Option Saved) (now : Nat) :
    (opened hostOf environmentUrl file now).Tidy := by
  have hnone : (opened hostOf environmentUrl file now).exchanges = [] ∧
      (opened hostOf environmentUrl file now).jar < (opened hostOf environmentUrl file now).made := by
    unfold opened
    cases file with
    | some saved => exact ⟨rfl, Nat.one_pos⟩
    | none =>
        dsimp only
        split_ifs <;> exact ⟨rfl, Nat.one_pos⟩
  refine ⟨hnone.2, ?_, ?_, ?_⟩ <;> rw [hnone.1]
  · exact List.forall_mem_nil _
  · exact List.Pairwise.nil
  · exact List.forall_mem_nil _

/-- In a run without late sign-outs and challenged sign-ins, stale exchanges leave
the session alone, and the file always describes it. -/
theorem fit_respects {environmentUrl : Text} {file : Option Saved} {now : Nat}
    (hopened : (opened hostOf environmentUrl file now).Described hostOf) {moves : List Move}
    (hrun : EachStep (step normalizeRemoteUrl hostOf) (Fit hostOf)
      (opened hostOf environmentUrl file now) moves) :
    EachStep (step normalizeRemoteUrl hostOf) (Respects normalizeRemoteUrl hostOf)
        (opened hostOf environmentUrl file now) moves ∧
      ∀ a ∈ states (step normalizeRemoteUrl hostOf) (opened hostOf environmentUrl file now) moves,
        a.Described hostOf := by
  have hkept : (opened hostOf environmentUrl file now).Kept hostOf := ⟨opened_tidy .., hopened⟩
  have hsteps : ∀ (a : Auth) (move : Move), a.Kept hostOf → a.Fit hostOf move →
      (a.step normalizeRemoteUrl hostOf move).Kept hostOf := fun _ _ h => h.step
  constructor
  · exact EachStep.of_invariant hsteps (fun _ _ h hfit => h.respects hfit) hkept hrun
  · exact fun a ha => (EachStep.states hsteps hkept hrun a ha).described

/-! ### A late sign-out -/

instance (a : Auth) (exchange : Exchange) : Decidable (a.Current exchange) :=
  inferInstanceAs (Decidable (_ = _))

instance (a : Auth) (exchange : Exchange) (ending : Ending) :
    Decidable (a.FitEnd exchange ending) := by
  unfold FitEnd
  split
  · infer_instance
  · infer_instance
  · infer_instance
  · rename_i baseUrl jar begunUrl begunJar posted probed written
    haveI : Decidable (∃ code, posted = .challenged code) := match posted with
      | .challenged code => isTrue ⟨code, rfl⟩
      | .redirected => isFalse nofun
      | .unreachable => isFalse nofun
      | .fault _ => isFalse nofun
      | .response _ _ => isFalse nofun
    infer_instance
  · infer_instance

instance (a : Auth) (move : Move) : Decidable (a.Fit hostOf move) := by
  unfold Fit
  split <;> infer_instance

/-- An answer that takes the password, and one that finds a session. -/
def welcome : Answer := .response 200 (some ⟨true, some true, some true, true⟩)

/-- A sign-out of the first session that ends after the second sign-in. -/
def lateSignOut : List Move :=
  [.beginsLogin (some (ascii "https://a")), .ends 0 (.login welcome welcome true), .beginsLogout,
    .beginsLogin (some (ascii "https://b")), .ends 1 (.login welcome welcome true)]

/-- The sign-out of the first session removes the second one. -/
theorem lateSignOut_changes : ¬ ∀ (moves : List Move) (move : Move),
    (moves.foldl (step .ok (List.drop 8)) (opened (List.drop 8) [] none 0)).Respects .ok
      (List.drop 8) move := by
  intro h
  rcases h lateSignOut (.ends 0 (.logout welcome true)) (.logout (ascii "https://a") 1) rfl with
    hsame | hcurrent | hsigns
  · exact absurd hsame.baseUrl (by decide)
  · exact absurd hcurrent (by decide)
  · exact hsigns

/-- A challenged request of a session that was replaced. -/
def lateChallenge : List Move :=
  [.beginsLogin (some (ascii "https://a")), .ends 0 (.login welcome welcome true), .beginsRequest,
    .beginsLogin (some (ascii "https://b")), .ends 1 (.login welcome welcome true),
    .ends 0 (.request (.challenged 401) true)]

theorem fit_respects_lateChallenge :
    EachStep (step .ok (List.drop 8)) (Respects .ok (List.drop 8)) (opened (List.drop 8) [] none 0)
        lateChallenge ∧
      ∀ a ∈ states (step .ok (List.drop 8)) (opened (List.drop 8) [] none 0) lateChallenge,
        a.Described (List.drop 8) :=
  fit_respects (by decide +kernel) (by decide +kernel)

end

end Auth

end Hermes

end CybexOS
