/-
The repository poll of `GitHub.qml`: one `gh` command at a time, the list of
repositories, the watches it left missing and the feed that is published.
-/
import CybexOS.Decimal
import CybexOS.GitHub.Repos

namespace CybexOS

namespace GitHub

namespace Poll

open Json (JsValue)

/-! ### Jobs -/

inductive InboxKind where
  | runs
  | events
  | notifications
deriving DecidableEq

inductive Job where
  | login
  | repos
  | watch (slug : Text)
  | commits (slug : Text) (toast : Bool) (since : Text)
  | stats (slug sha : Text)
  | inbox (kind : InboxKind) (slug : Text) (sweep generation : ℕ)
deriving DecidableEq

def jobKey : Job → Text
  | .login => ascii "login"
  | .repos => ascii "repos"
  | .watch slug => ascii "watch:" ++ slug
  | .commits slug _ _ => ascii "commits:" ++ slug
  | .stats _ sha => ascii "stats:" ++ sha
  | .inbox .runs slug _ generation => ascii "runs:" ++ slug ++ 58 :: digitsOf generation
  | .inbox .events slug _ generation => ascii "events:" ++ slug ++ 58 :: digitsOf generation
  | .inbox .notifications _ _ generation => ascii "notifications:" ++ digitsOf generation

def Job.isInbox : Job → Bool
  | .inbox .. => true
  | _ => false

/-- `job.sweep === id`, which only inbox jobs have. -/
def Job.ofSweep (id : ℕ) : Job → Bool
  | .inbox _ _ sweep _ => sweep == id
  | _ => false

def Job.isWatch : Job → Bool
  | .watch _ => true
  | _ => false

structure Queued where
  job : Job
  interactive : Bool
deriving DecidableEq

/-! ### The state -/

/-- What happened since the last refresh began: the rows that a repos response
brought, the watches that it left missing and those answered since. -/
structure Progress where
  response : Option (List Repo)
  missing : List Text
  answered : List Text
deriving DecidableEq

/-- What `publishRepos` ran with. -/
structure Publication where
  own : List Repo
  extra : List Repo
  watch : List Text
  progress : Progress

/-- The last three fields are history, which nothing reads: the poll so far,
whether the watch reads still out are those of a poll that was given up, and
what has been published, newest first. -/
structure Feed where
  enabled : Bool
  toasts : Bool
  watch : List Text
  login : Text
  polling : Bool
  ownRepos : List Repo
  extraRepos : List Repo
  pendingWatch : ℕ
  nextWatchErrors : List (Text × Text)
  watchErrors : List (Text × Text)
  reposCache : Option (List Repo)
  watchCache : List (Text × Repo)
  repos : List Listed
  seenAt : Text
  lastPush : List (Text × Text)
  queue : List Queued
  active : Option Queued
  running : Bool
  progress : Progress
  behind : Bool
  published : List Publication

/-! ### The queue -/

/-- Put a job behind the interactive ones. -/
def intoLane (job : Queued) (queue : List Queued) : List Queued :=
  queue.takeWhile (·.interactive) ++ job :: queue.dropWhile (·.interactive)

def sameKey (job other : Queued) : Bool := jobKey job.job == jobKey other.job

/-- The queue after a job that is already in it was asked for. -/
def promote (job : Queued) (queue : List Queued) : List Queued :=
  let queuedAt := queue.findIdx (sameKey job)
  match queue[queuedAt]? with
  | some queued =>
      if job.interactive && !queued.interactive then
        intoLane { queued with interactive := true } (queue.eraseIdx queuedAt)
      else queue
  | none => queue

def pump (f : Feed) : Feed :=
  if f.active.isSome || f.running then f
  else
    match if f.enabled then f.queue else f.queue.dropWhile (!·.interactive) with
    | [] => { f with queue := [] }
    | job :: rest => { f with queue := rest, active := some job, running := true }

def enqueue (job : Queued) (f : Feed) : Feed :=
  if f.active.any (sameKey job) then f
  else if f.queue.any (sameKey job) then { f with queue := promote job f.queue }
  else pump { f with
    queue := if job.interactive then intoLane job f.queue else f.queue ++ [job] }

/-- What the inbox does to the queue: `invalidateInboxScope`, `failInboxSweep`
and the jobs of a sweep. -/
inductive InboxMove where
  | invalidate
  | fail (sweep : ℕ)
  | enqueue (kind : InboxKind) (slug : Text) (sweep generation : ℕ)

def InboxMove.exec (f : Feed) : InboxMove → Feed
  | .invalidate => { f with queue := f.queue.filter (!·.job.isInbox) }
  | .fail sweep => { f with queue := f.queue.filter (!·.job.ofSweep sweep) }
  | .enqueue kind slug sweep generation =>
      Poll.enqueue ⟨.inbox kind slug sweep generation, false⟩ f

/-! ### Publishing -/

/-- How a conditional read ended. -/
inductive Outcome (α : Type) where
  | ok (row : Option α) (etag : Text)
  | notModified
  | failed

/-- What a command returned, as each kind of job reads it: the account's name
(`none` when the command failed), the repositories, one repository, the text of
its error, and what the inbox does with it (of its own result, when the rows
change the monitored scope, and on the first rows). -/
structure Answer where
  login : Option Text
  repos : Outcome (List Repo)
  watch : Outcome Repo
  errorText : Text
  inbox : List InboxMove
  scope : List InboxMove
  first : List InboxMove

/-- The baselines that `queuePushToasts` leaves. -/
def pushBaselines (repos : List Listed) : List (Text × Text) :=
  (repos.filter (·.watched)).foldl (fun next row => Dict.set next row.slug row.pushedAt) []

/-- A row whose push is announced, by what was known of it. -/
def announces (f : Feed) (silent : Bool) (row : Listed) : Option Text :=
  (f.lastPush.lookup row.slug).filter fun previous =>
    !silent && f.toasts && row.pushedAt ≠ [] && decide (previous < row.pushedAt)

def queuePushToasts (silent : Bool) (f : Feed) : Feed :=
  let f' := (f.repos.filter (·.watched)).foldl (fun g row =>
    (announces f silent row).elim g fun previous =>
      enqueue ⟨.commits row.slug true previous, false⟩ g) f
  { f' with lastPush := pushBaselines f.repos }

section

variable (localeCompare : Text → Text → Ordering)

def publishRepos (now : Text) (answer : Answer) (f : Feed) : Feed :=
  let merged := mergeRepos localeCompare f.ownRepos f.extraRepos f.watch
  let g := answer.scope.foldl InboxMove.exec { f with repos := merged }
  let g := { g with
    watchErrors := g.nextWatchErrors
    polling := false
    seenAt := if g.seenAt = [] then now else g.seenAt
    published := ⟨f.ownRepos, f.extraRepos, f.watch, f.progress⟩ :: g.published }
  answer.first.foldl InboxMove.exec (queuePushToasts (f.seenAt = []) g)

/-! ### A poll -/

def refresh (f : Feed) : Feed :=
  if !f.enabled || f.polling then f
  else
    let f := { f with
      polling := true
      ownRepos := []
      extraRepos := []
      pendingWatch := 0
      nextWatchErrors := []
      progress := ⟨none, [], []⟩
      behind := true }
    enqueue ⟨.repos, false⟩ (if f.login = [] then enqueue ⟨.login, false⟩ f else f)

def failPoll (f : Feed) : Feed := { f with polling := false, pendingWatch := 0 }

def missingWatches (f : Feed) : List Text :=
  f.watch.filter fun slug => lowered slug ∉ f.ownRepos.map (lowered ·.slug)

def fanOutWatched (now : Text) (answer : Answer) (f : Feed) : Feed :=
  let missing := missingWatches f
  let f := { f with
    watchCache := f.watchCache.filter fun item => item.1 ∈ missing.map lowered
    pendingWatch := missing.length
    progress := { f.progress with missing := missing, answered := [] }
    behind := false }
  if missing = [] then publishRepos localeCompare now answer f
  else missing.foldl (fun f slug => enqueue ⟨.watch slug, false⟩ f) f

def settleRepos (now : Text) (answer : Answer) (f : Feed) : Feed :=
  match answer.repos with
  | .ok (some rows) _ => fanOutWatched localeCompare now answer { f with
      reposCache := some rows
      ownRepos := rows
      progress := { f.progress with response := some rows } }
  | .ok none _ => failPoll f
  | .notModified =>
      match f.reposCache with
      | some rows => fanOutWatched localeCompare now answer { f with
          ownRepos := rows
          progress := { f.progress with response := some rows } }
      | none => failPoll f
  | .failed => failPoll f

def updateWatchCache (cache : List (Text × Repo)) (slug : Text) (row : Option Repo) (etag : Text) :
    List (Text × Repo) :=
  match row with
  | some row =>
      if etag = [] then Dict.pop cache (lowered slug) else Dict.set cache (lowered slug) row
  | none => Dict.pop cache (lowered slug)

/-- The cache once a watch was answered. -/
def cachedWatch (slug : Text) (answer : Answer) (f : Feed) : List (Text × Repo) :=
  match answer.watch with
  | .ok row etag => updateWatchCache f.watchCache slug row etag
  | _ => f.watchCache

def patchNextWatchError (errors : List (Text × Text)) (slug message : Text) :
    List (Text × Text) :=
  if message = [] then errors else Dict.set errors slug message

/-- The row that an answered watch stands on. -/
def watchRow (slug : Text) (answer : Answer) (f : Feed) : Option Repo :=
  match answer.watch with
  | .ok row _ => row
  | .notModified => f.watchCache.lookup (lowered slug)
  | .failed => none

def settleWatch (now : Text) (answer : Answer) (slug : Text) (f : Feed) : Feed :=
  let row := watchRow slug answer f
  let f := { f with
    watchCache := cachedWatch slug answer f
    extraRepos := f.extraRepos ++ row.toList
    nextWatchErrors := patchNextWatchError f.nextWatchErrors slug
      (if row.isSome then [] else answer.errorText)
    pendingWatch := f.pendingWatch - 1
    progress := { f.progress with answered := slug :: f.progress.answered } }
  if f.pendingWatch = 0 then publishRepos localeCompare now answer f else f

def settleJob (now : Text) (answer : Answer) (job : Job) (f : Feed) : Feed :=
  match job with
  | .login => { f with login := answer.login.getD f.login }
  | .repos => settleRepos localeCompare now answer f
  | .watch slug => settleWatch localeCompare now answer slug f
  | .commits _ _ _ => f
  | .stats _ _ => f
  | .inbox _ _ _ _ => answer.inbox.foldl InboxMove.exec f

def settle (now : Text) (answer : Answer) (f : Feed) : Feed :=
  match f.active with
  | none => pump f
  | some job =>
      let f := { f with active := none }
      if !job.job.isInbox && !f.enabled && !job.interactive then
        pump { f with polling := false, pendingWatch := 0 }
      else pump (settleJob localeCompare now answer job.job f)

/-- `onPollEnabledChanged` -/
def setEnabled (on : Bool) (f : Feed) : Feed :=
  if on = f.enabled then f
  else if on then { f with enabled := true }
  else { f with
    enabled := false
    queue := f.queue.filter (·.interactive)
    polling := false
    pendingWatch := 0
    behind := f.behind || f.queue.any (·.job.isWatch) }

/-! ### Runs -/

/-- `exit` is the falling edge of the process, `abandon` the watchdog that
gives up on it. -/
inductive Event where
  | refresh
  | setEnabled (on : Bool)
  | setWatch (list : JsValue)
  | setToasts (on : Bool)
  | acknowledge (stamp : Text)
  | requestCommits (slug : Text)
  | requestStats (slug sha : Text)
  | inbox (move : InboxMove)
  | exit (now : Text) (answer : Answer)
  | abandon (now : Text) (answer : Answer)

def Feed.step (f : Feed) : Event → Feed
  | .refresh => Poll.refresh f
  | .setEnabled on => Poll.setEnabled on f
  | .setWatch list => { f with watch := normalizeWatch list }
  | .setToasts on => { f with toasts := on }
  | .acknowledge stamp => { f with seenAt := stamp }
  | .requestCommits slug => enqueue ⟨.commits slug false [], true⟩ f
  | .requestStats slug sha => enqueue ⟨.stats slug sha, true⟩ f
  | .inbox move => move.exec f
  | .exit now answer => settle localeCompare now answer { f with running := false }
  | .abandon now answer =>
      if f.active.isSome then settle localeCompare now answer f else f

end

/-- The service as it starts, with what was saved. -/
def start (enabled toasts : Bool) (watch : JsValue) (seenAt : Text)
    (lastPush : List (Text × Text)) : Feed where
  enabled := enabled
  toasts := toasts
  watch := normalizeWatch watch
  login := []
  polling := false
  ownRepos := []
  extraRepos := []
  pendingWatch := 0
  nextWatchErrors := []
  watchErrors := []
  reposCache := none
  watchCache := []
  repos := []
  seenAt := seenAt
  lastPush := lastPush
  queue := []
  active := none
  running := false
  progress := ⟨none, [], []⟩
  behind := true
  published := []

/-! ### Complete polls -/

/-- The rows of a response since the last refresh, and every watch that it
left missing has been answered. -/
def Publication.Complete (p : Publication) : Prop :=
  p.progress.response = some p.own ∧ ∀ slug ∈ p.progress.missing, slug ∈ p.progress.answered

instance (p : Publication) : Decidable p.Complete :=
  inferInstanceAs (Decidable (_ ∧ _))

/-- A watch read of a poll that was given up ends while the module is on. -/
def SettlesBehind (f : Feed) (event : Event) : Prop :=
  match event, f.active with
  | .exit _ _, some job => job.job.isWatch = true ∧ f.enabled = true ∧ f.behind = true
  | .abandon _ _, some job => job.job.isWatch = true ∧ f.enabled = true ∧ f.behind = true
  | _, _ => False

end Poll

end GitHub

end CybexOS
