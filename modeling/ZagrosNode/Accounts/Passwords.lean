import Mathlib.Data.List.TakeWhile
import ZagrosNode.Lib.Object
import ZagrosNode.Lib.Text
import ZagrosNode.Accounts.Awaits
import ZagrosNode.Accounts.Filed
import ZagrosNode.Accounts.Willing
import ZagrosNode.Accounts.Convergence

/-!
# ZagrosNode — the passwords of SSH accounts

SSH has one unix user per account. Its name is made of harmless characters,
whatever the account id is; its password is the text of whatever the panel sent,
and reaches `chpasswd` in a line of its standard input. A newline in the password
ends that line, and what follows is a line of its own.

`Accounts/Awaits.lean` leaves the password out of the driver's calls. Here they
carry it, and `update_account` is modelled as well. Unix users may come and go at
every await; the settings of the driver stay.

Two things are followed through a push: which account a call is about, and the text
that goes to the standard input of `chpasswd`. `Call.feeds` gives both for the two calls
that set a password, and the theorems are about every such call a push *can* come to:
whatever the host answers and whatever unix users come and go at the awaits. That is
the reading of the code as a program with a set of calls (`Awaits`), not as one run.

The line is `user:password` with a line feed, and `chpasswd` takes the text before the
first colon for the user. The user name has no colon and no line feed, since it is made
by `sanitizeUsername`. So what is fed is one line about that user exactly if the
password has no line feed; a carriage return does not end a line there.

`update_account` and the default password of the core are two more ways to a password,
with a rule each for when it is set.

Main results:

* `toOp_syncAccounts` — without the passwords this is the sync of
  `Accounts/Drivers.lean`.
* `program_feeds_iff` — what a push can feed to `chpasswd`.
* `fed_own_iff` — it feeds one line about the account's own user each time if
  and only if no password it sets has a newline.
* `password_injects` — a password that sets another user's.
-/

namespace ZagrosNode.Accounts.Passwords

open ZagrosNode.Lib ZagrosNode.Cores Co

-- ---------------------------------------------------------------------------
-- chpasswd
-- ---------------------------------------------------------------------------

/-- What `set_password` feeds to `chpasswd`. -/
def chpasswdInput (name password : String) : String := name ++ ":" ++ password ++ "\n"

/-- The lines `chpasswd` reads. -/
def lines (input : List Char) : List (List Char) :=
  let pieces := splitSep '\n' input
  if pieces.getLast? = some [] then pieces.dropLast else pieces

/-- The user a line is about: the text before the first colon. -/
def userOf (line : List Char) : List Char := line.takeWhile fun c => decide (c ≠ ':')

/-- The input is one line, about the account's own unix user. -/
def Own (p : Platform) (account : UserAccount) (input : String) : Prop :=
  ∃ name line, sanitizeUsername p account.accountId = .ok name ∧ "zg-".toList <+: name.toList ∧
    lines input.toList = [line] ∧ userOf line = name.toList

-- ---------------------------------------------------------------------------
-- The driver
-- ---------------------------------------------------------------------------

/-- What the driver awaits, with the passwords. `create_user` and `set_password` are
called for an account, which is not part of the call itself. -/
inductive Call
  | createUser (account : UserAccount) (name password : String)
  | setPassword (account : UserAccount) (name password : String)
  | other (c : Await)

/-- The await without the password. -/
def Call.plain : Call → Await
  | .createUser _ name _  => .backend (.createUser name)
  | .setPassword _ name _ => .backend (.setPassword name)
  | .other c              => c

/-- What the call feeds to `chpasswd`, and for which account. `create_user` sets
the password of the user it has added. -/
def Call.feeds : Call → Option (UserAccount × String)
  | .createUser account name password  => some (account, chpasswdInput name password)
  | .setPassword account name password => some (account, chpasswdInput name password)
  | .other _                           => none

abbrev Sync := Co Driver DriverError Call

def call (c : HostCall) : Sync Unit := await (.other (.backend c))

def onlyIf (condition : Bool) (body : Sync Unit) : Sync Unit := if condition then body else pure ()

/-- `_account_password`: an explicit password wins over the default one. -/
def accountPassword (p : Platform) (settings : Settings) (account : UserAccount) : String :=
  p.text ((Json.getD account.settings "password").or (Json.getD settings "default_password"))

def ensureUser (account : UserAccount) (name password : String) : Sync Unit := do
  await (.other (.userExists name))
  let d ← get
  if name ∉ d.unixUsers then do
    await (.createUser account name password)
    modify fun d => d.addUnixUser name
  else onlyIf account.enabled (await (.setPassword account name password))

def installKey (p : Platform) (name : String) : Sync Unit := do
  let d ← get
  let key := strip (p.text (Json.getD d.settings "default_authorized_key")).toList
  let pubkeyAuth := ((Json.get? d.settings "pubkey_auth").getD (.bool true)).truthy
  onlyIf (!key.isEmpty && pubkeyAuth) (call (.authorizeKey name))

def lockAndKill (name : String) : Sync Unit := do
  call (.lockUser name)
  call (.killSessions name)

/-- The end of both operations. -/
def lockOrUnlock (account : UserAccount) (name : String) : Sync Unit :=
  if account.enabled then call (.unlockUser name) else lockAndKill name

/-- `create_account` -/
def createAccount (p : Platform) (h : Host) (account : UserAccount) : Sync Unit := do
  let d ← get
  lift (ensureSupported (· == "ssh")
    s!"SSH core only serves protocol 'ssh', got '{account.protocol}'." account)
  let account := Ssh.provisionCredentials h d.settings account
  lift (Ssh.ensureCredentials d.settings account)
  let name ← lift (Ssh.unixName p account)
  ensureUser account name (accountPassword p d.settings account)
  installKey p name
  modify fun d => d.putAccount account
  lockOrUnlock account name

/-- `update_account`; `eq` is the equality of two passwords. -/
def updateAccount (p : Platform) (h : Host) (eq : Json → Json → Bool) (account : UserAccount) :
    Sync Unit := do
  let d ← get
  lift (ensureSupported (· == "ssh")
    s!"SSH core only serves protocol 'ssh', got '{account.protocol}'." account)
  let account := Ssh.provisionCredentials h d.settings account
  lift (Ssh.ensureCredentials d.settings account)
  let name ← lift (Ssh.unixName p account)
  match d.roster.table.get? account.accountId with
  | none          => createAccount p h account
  | some previous => do
    onlyIf (!eq (Json.getD previous.settings "password") (Json.getD account.settings "password")) do
      await (.setPassword account name (accountPassword p d.settings account))
      call (.killSessions name)
    modify fun d => d.putAccount account
    lockOrUnlock account name

def removeUser (name : String) : Sync Unit := do
  await (.other (.uidOf name))
  lockAndKill name
  call (.forgetTransport name)
  call (.deleteUser name)
  modify fun d => d.dropUnixUser name

def deleteAccount (p : Platform) (id : String) : Sync Unit := do
  let d ← get
  modify fun d => d.dropAccount id
  match d.roster.table.get? id with
  | none =>
    match sanitizeUsername p id with
    | .ok name => removeUser name
    | .error _ => pure ()
  | some account => lift (Ssh.unixName p account) >>= removeUser

/-- `sync_accounts` -/
def syncAccounts (p : Platform) (h : Host) (accounts : List UserAccount) : Sync Unit := do
  let d ← get
  let accounts := accounts.map (Ssh.provisionCredentials h d.settings)
  forEach (createAccount p h)
    (accounts.filter fun a => decide (a.accountId ∈ Ssh.desiredIds accounts))
  let d ← get
  forEach (deleteAccount p) (d.roster.ids.filter fun id => decide (id ∉ Ssh.desiredIds accounts))

/-- What the driver is asked to do with accounts. -/
inductive Push
  | create (account : UserAccount)
  | update (account : UserAccount)
  | sync (accounts : List UserAccount)

def Push.program (p : Platform) (h : Host) (eq : Json → Json → Bool) : Push → Sync Unit
  | .create account => createAccount p h account
  | .update account => updateAccount p h eq account
  | .sync accounts  => syncAccounts p h accounts

/-- The accounts that are to be created or updated. -/
def Push.accounts (settings : Settings) : Push → List UserAccount
  | .create account | .update account => [account]
  | .sync accounts                    => served settings accounts .ssh

/-- Those the driver gets to; an account of another protocol ends the push. -/
def Push.reached (settings : Settings) (push : Push) : List UserAccount :=
  (push.accounts settings).takeWhile fun a => a.protocol == "ssh"

-- ---------------------------------------------------------------------------
-- The sync without its passwords
-- ---------------------------------------------------------------------------

section Uninterrupted

variable (p : Platform) (h : Host)

/-- The answers of a host that does not look at passwords. -/
def answers (c : Call) : Except DriverError Unit := Suspended.answers h c.plain

theorem toOp_call (c : HostCall) :
    (call c).toOp (answers h) = Accounts.call h c := rfl

theorem toOp_onlyIf (condition : Bool) (body : Sync Unit) :
    (onlyIf condition body).toOp (answers h) =
      Accounts.onlyIf condition (body.toOp (answers h)) := by
  cases condition <;> rfl

theorem toOp_ensureUser (account : UserAccount) (name password : String) :
    (ensureUser account name password).toOp (answers h) = Ssh.ensureUser h account name := by
  unfold ensureUser Ssh.ensureUser
  rw [toOp_await_bind (answers h) rfl]
  simp only [toOp_bind, toOp_get, toOp_modify, toOp_onlyIf, apply_ite (toOp (answers h))]
  rfl

theorem toOp_lockAndKill (name : String) :
    (lockAndKill name).toOp (answers h) = Ssh.lockAndKill h name := by
  unfold lockAndKill Ssh.lockAndKill
  simp only [toOp_bind, toOp_call]

theorem toOp_createAccount (account : UserAccount) :
    (createAccount p h account).toOp (answers h) = Ssh.createAccount p h account := by
  unfold createAccount Ssh.createAccount installKey Ssh.installKey lockOrUnlock
  simp only [toOp_bind, toOp_get, toOp_lift, toOp_call, toOp_modify, toOp_onlyIf, toOp_ensureUser,
    toOp_lockAndKill, apply_ite (toOp (answers h))]

theorem toOp_removeUser (name : String) :
    (removeUser name).toOp (answers h) = Ssh.removeUser h name := by
  unfold removeUser Ssh.removeUser
  rw [toOp_await_bind (answers h) rfl]
  simp only [toOp_bind, toOp_call, toOp_modify, toOp_lockAndKill]

theorem toOp_deleteAccount (id : String) :
    (deleteAccount p id).toOp (answers h) = Ssh.deleteAccount p h id := by
  unfold deleteAccount Ssh.deleteAccount
  simp only [toOp_bind, toOp_get, toOp_modify]
  congr
  funext d
  congr
  funext _
  cases d.roster.table.get? id with
  | none =>
    cases sanitizeUsername p id with
    | ok name => exact toOp_removeUser h name
    | error e => rfl
  | some account => simp only [toOp_bind, toOp_lift, toOp_removeUser]

/--
**Passwords aside** it is the sync of the driver: the coroutine that says what
it feeds `chpasswd` does, with every await answered at once, exactly what
`Ssh.syncAccounts` does.
-/
theorem toOp_syncAccounts (accounts : List UserAccount) :
    (syncAccounts p h accounts).toOp (answers h) = Ssh.syncAccounts p h accounts := by
  unfold syncAccounts Ssh.syncAccounts
  simp only [toOp_bind, toOp_get, toOp_forEach, toOp_createAccount, toOp_deleteAccount]

end Uninterrupted

-- ---------------------------------------------------------------------------
-- Lines
-- ---------------------------------------------------------------------------

/-- The characters of a unix name are of no account to `chpasswd`. -/
theorem safeChar_ne {c other : Char} (h : safeChar c = true) (hOther : safeChar other = false) :
    c ≠ other := by
  rintro rfl
  rw [h] at hOther
  cases hOther

/--
**Every account id has a unix name**, which is prefixed and harmless. So the
validation at the end of `sanitize_username` never rejects what was made before
it, and no id, of whatever characters, gives a name with a colon or a newline.
-/
theorem sanitizeUsername_ok (p : Platform) (accountId : String) :
    ∃ cs, sanitizeUsername p accountId = .ok (String.ofList cs) ∧ "zg-".toList <+: cs ∧
      ∀ c ∈ cs, safeChar c = true := by
  unfold sanitizeUsername
  generalize hClean : ((p.lower accountId).toList.map fun c => if safeChar c then c else '-') = clean
  have hSafe : ∀ c ∈ clean, safeChar c = true := by
    intro c hMem
    rw [← hClean] at hMem
    obtain ⟨c', -, rfl⟩ := List.mem_map.mp hMem
    split
    · assumption
    · decide
  dsimp only
  -- with the prefix or without, the candidate starts with it
  have hCandidate : ∃ rest, (if "zg-".toList.isPrefixOf clean then clean else "zg-".toList ++ clean) =
      'z' :: 'g' :: '-' :: rest ∧ ∀ c ∈ rest, safeChar c = true := by
    by_cases hPrefix : "zg-".toList.isPrefixOf clean = true
    · rw [if_pos hPrefix]
      obtain ⟨rest, rfl⟩ := List.isPrefixOf_iff_prefix.mp hPrefix
      exact ⟨rest, rfl, fun c hMem => hSafe c (List.mem_append_right _ hMem)⟩
    · rw [if_neg hPrefix]
      exact ⟨clean, rfl, hSafe⟩
  obtain ⟨rest, hEq, hRest⟩ := hCandidate
  rw [hEq]
  -- 32 characters are kept, and the prefix is three of them
  have hTake : ('z' :: 'g' :: '-' :: rest).take 32 = 'z' :: 'g' :: '-' :: rest.take 29 := rfl
  have hTail : ∀ c ∈ 'g' :: '-' :: rest.take 29, safeChar c = true := by
    refine List.forall_mem_cons.mpr ⟨by decide, List.forall_mem_cons.mpr ⟨by decide, ?_⟩⟩
    exact fun c hMem => hRest c (List.mem_of_mem_take hMem)
  have hLength : ('g' :: '-' :: rest.take 29).length ≤ 31 := by
    rw [List.length_cons, List.length_cons, List.length_take]
    omega
  have hAccepted : safeUser ('z' :: 'g' :: '-' :: rest.take 29) = true := by
    rw [safeUser, List.all_eq_true.mpr hTail, decide_eq_true hLength]
    decide
  rw [hTake, if_pos hAccepted]
  exact ⟨_, rfl, ⟨rest.take 29, rfl⟩, List.forall_mem_cons.mpr ⟨by decide, hTail⟩⟩

/-- Text that ends in a newline is as many lines as there are pieces before
it. -/
theorem lines_append_newline (body : List Char) :
    lines (body ++ ['\n']) = splitSep '\n' body := by
  have hSplit : splitSep '\n' (body ++ ['\n']) = splitSep '\n' body ++ [[]] :=
    splitSep_append_sep '\n' body []
  rw [lines, hSplit]
  simp

theorem toList_chpasswdInput (name password : String) :
    (chpasswdInput name password).toList =
      (name.toList ++ ':' :: password.toList) ++ ['\n'] := by
  simp [chpasswdInput]

/--
**One line about the account's own user** is what a password without a newline
makes, and no other password: `chpasswd` reads a line for each newline, and the
name before the colon is harmless.
-/
theorem own_iff {p : Platform} {account : UserAccount} {name password : String}
    (hName : sanitizeUsername p account.accountId = .ok name) :
    Own p account (chpasswdInput name password) ↔ '\n' ∉ password.toList := by
  obtain ⟨cs, hSanitized, hPrefix, hSafe⟩ := sanitizeUsername_ok p account.accountId
  obtain rfl : String.ofList cs = name := Except.ok.inj (hSanitized.symm.trans hName)
  -- the name has no newline, so every newline is the password's
  have hNewline : '\n' ∉ cs := fun hMem => safeChar_ne (hSafe _ hMem) (by decide) rfl
  have hBody : '\n' ∉ cs ++ ':' :: password.toList ↔ '\n' ∉ password.toList := by
    simp [hNewline]
  have hLines : lines (chpasswdInput (String.ofList cs) password).toList =
      splitSep '\n' (cs ++ ':' :: password.toList) := by
    rw [toList_chpasswdInput, String.toList_ofList, lines_append_newline]
  unfold Own
  rw [hLines]
  constructor
  · rintro ⟨-, line, -, -, hOne, -⟩
    exact hBody.mp (splitSep_eq_singleton_iff.mp hOne).1
  · intro hPassword
    have hPrefixed : "zg-".toList <+: (String.ofList cs).toList := by
      rwa [String.toList_ofList (l := cs)]
    refine ⟨_, _, hName, hPrefixed, splitSep_of_not_mem (hBody.mpr hPassword), ?_⟩
    -- the user's name ends at the first colon, and the name has none
    have hColon : ∀ c ∈ cs, decide (c ≠ ':') = true := fun c hMem =>
      decide_eq_true (safeChar_ne (hSafe c hMem) (by decide))
    rw [userOf, String.toList_ofList, List.takeWhile_append_of_pos hColon,
      List.takeWhile_cons_of_neg (by decide), List.append_nil]

-- ---------------------------------------------------------------------------
-- What a push feeds
-- ---------------------------------------------------------------------------

/-- The driver has these settings. -/
def Configured (settings : Settings) (d : Driver) : Prop := d.settings = settings

/-- A driver without accounts, on a host without unix users. -/
def bareDriver (settings : Settings) : Driver := ⟨settings, Roster.empty, [], ⟨[], List.nodup_nil⟩⟩

theorem configured_bare (settings : Settings) : ∃ d, Configured settings d :=
  ⟨bareDriver settings, rfl⟩

/-- The call feeds this for this account. -/
def Feeding (account : UserAccount) (input : String) (c : Call) : Prop :=
  c.feeds = some (account, input)

section Feeds

variable {p : Platform} {h : Host} {eq : Json → Json → Bool} {settings : Settings}
  {account fed : UserAccount} {name password input : String}

/-- Only the two calls with a password feed anything. -/
theorem other_feeds (c : Await) :
    ¬ (await (.other c) : Sync Unit).Awaits (Configured settings) (Feeding fed input) := by
  intro hCall
  cases awaits_await.mp hCall

theorem call_feeds (c : HostCall) :
    ¬ (call c).Awaits (Configured settings) (Feeding fed input) := other_feeds _

theorem call_yields (c : HostCall) : (call c).Yields (Configured settings) () := yields_await _

theorem lockAndKill_feeds :
    ¬ (lockAndKill name).Awaits (Configured settings) (Feeding fed input) := by
  unfold lockAndKill
  rw [awaits_bind]
  rintro (hFirst | ⟨-, -, hLast⟩)
  · exact call_feeds _ hFirst
  · exact call_feeds _ hLast

theorem lockOrUnlock_feeds :
    ¬ (lockOrUnlock account name).Awaits (Configured settings) (Feeding fed input) := by
  unfold lockOrUnlock
  split
  · exact call_feeds _
  · exact lockAndKill_feeds

theorem lockOrUnlock_yields :
    (lockOrUnlock account name).Yields (Configured settings) () := by
  unfold lockOrUnlock
  split
  · exact call_yields _
  · exact yields_bind.mpr ⟨(), call_yields _, call_yields _⟩

theorem installKey_feeds :
    ¬ (installKey p name).Awaits (Configured settings) (Feeding fed input) := by
  unfold installKey
  rw [awaits_get_bind]
  rintro ⟨d, -, hKey⟩
  dsimp only [onlyIf] at hKey
  split at hKey
  · exact call_feeds _ hKey
  · exact hKey

theorem installKey_yields : (installKey p name).Yields (Configured settings) () := by
  obtain ⟨d, hConfigured⟩ := configured_bare settings
  unfold installKey
  rw [yields_get_bind]
  refine ⟨d, hConfigured, ?_⟩
  dsimp only [onlyIf]
  split
  · exact call_yields _
  · exact rfl

theorem ensureUser_feeds :
    (ensureUser account name password).Awaits (Configured settings) (Feeding fed input) ↔
      fed = account ∧ input = chpasswdInput name password := by
  unfold ensureUser
  rw [awaits_bind, or_iff_right (other_feeds _)]
  constructor
  · rintro ⟨-, -, hAsked⟩
    obtain ⟨d, -, hUser⟩ := awaits_get_bind.mp hAsked
    -- a new user is created with the password, a known one may have it set again
    have hFeeds : some (account, chpasswdInput name password) = some (fed, input) := by
      split at hUser
      · rcases awaits_bind.mp hUser with hCreate | ⟨-, -, hAdd⟩
        · have hCall : Feeding fed input (.createUser account name password) :=
            awaits_await.mp hCreate
          exact hCall
        · exact (awaits_modify hAdd).elim
      · dsimp only [onlyIf] at hUser
        split at hUser
        · have hCall : Feeding fed input (.setPassword account name password) :=
            awaits_await.mp hUser
          exact hCall
        · exact hUser.elim
    obtain ⟨rfl, rfl⟩ := Prod.mk.inj (Option.some.inj hFeeds)
    exact ⟨rfl, rfl⟩
  · rintro ⟨rfl, rfl⟩
    -- conversely a driver that knows no user feeds the password with the creation
    refine ⟨(), yields_await _, awaits_get_bind.mpr ⟨bareDriver settings, rfl, ?_⟩⟩
    rw [if_pos (show name ∉ (bareDriver settings).unixUsers from List.not_mem_nil)]
    exact awaits_bind.mpr (Or.inl (awaits_await.mpr rfl))

theorem ensureUser_yields :
    (ensureUser account name password).Yields (Configured settings) () := by
  unfold ensureUser
  refine yields_bind.mpr ⟨(), yields_await _, yields_get_bind.mpr ⟨bareDriver settings, rfl, ?_⟩⟩
  rw [if_pos (show name ∉ (bareDriver settings).unixUsers from List.not_mem_nil)]
  exact yields_bind.mpr ⟨(), yields_await _, yields_modify.mpr (configured_bare settings)⟩

/--
**Creating an account** sets its password, if it is an SSH account. A user that
is there already may have the password set as well, but either way it is this
account's name and password, and nothing behind that call feeds anything.
-/
theorem createAccount_feeds :
    (createAccount p h account).Awaits (Configured settings) (Feeding fed input) ↔
      account.protocol = "ssh" ∧ fed = Ssh.provisionCredentials h settings account ∧
        ∃ name, sanitizeUsername p account.accountId = .ok name ∧
          input = chpasswdInput name (accountPassword p settings fed) := by
  have hProvisioned := Ssh.ensureCredentials_provisioned h settings account
  unfold createAccount
  simp only [awaits_get_bind, awaits_lift_bind]
  constructor
  · rintro ⟨d, rfl, ⟨⟩, hProtocol, ⟨⟩, -, name, hName, hRest⟩
    rw [Ssh.unixName_provisioned] at hName
    refine ⟨by simpa using ensureSupported_ok_iff.mp hProtocol, ?_⟩
    have hUser := awaits_bind.mp hRest
    -- behind the user nothing is fed: the key, the entry, the lock
    rcases hUser with hUser | ⟨-, -, hUser⟩
    · obtain ⟨rfl, rfl⟩ := ensureUser_feeds.mp hUser
      exact ⟨rfl, name, Ssh.unixName_ok hName, rfl⟩
    · rcases awaits_bind.mp hUser with hKey | ⟨-, -, hEnd⟩
      · exact (installKey_feeds hKey).elim
      · rcases awaits_bind.mp hEnd with hPut | ⟨-, -, hLock⟩
        · exact (awaits_modify hPut).elim
        · exact (lockOrUnlock_feeds hLock).elim
  · rintro ⟨hProtocol, rfl, name, hName, rfl⟩
    have hUnix : Ssh.unixName p account = .ok name := by
      rw [Ssh.unixName, hName]
      rfl
    refine ⟨bareDriver settings, rfl, (), ?_, (), hProvisioned, name, ?_, ?_⟩
    · exact ensureSupported_ok_iff.mpr (by simpa using hProtocol)
    · exact (Ssh.unixName_provisioned p h settings account).trans hUnix
    · exact awaits_bind.mpr (Or.inl (ensureUser_feeds.mpr ⟨rfl, rfl⟩))

theorem createAccount_yields :
    (createAccount p h account).Yields (Configured settings) () ↔ account.protocol = "ssh" := by
  have hProvisioned := Ssh.ensureCredentials_provisioned h settings account
  unfold createAccount
  simp only [yields_get_bind, yields_lift_bind]
  constructor
  · rintro ⟨d, -, ⟨⟩, hProtocol, -⟩
    simpa using ensureSupported_ok_iff.mp hProtocol
  · intro hProtocol
    obtain ⟨cs, hName, -⟩ := sanitizeUsername_ok p account.accountId
    have hUnix : Ssh.unixName p account = .ok (String.ofList cs) := by
      rw [Ssh.unixName, hName]
      rfl
    refine ⟨bareDriver settings, rfl, (), ?_, (), hProvisioned, String.ofList cs, ?_, ?_⟩
    · exact ensureSupported_ok_iff.mpr (by simpa using hProtocol)
    · exact (Ssh.unixName_provisioned p h settings account).trans hUnix
    · refine yields_bind.mpr ⟨(), ensureUser_yields, yields_bind.mpr ⟨(), installKey_yields, ?_⟩⟩
      exact yields_bind.mpr ⟨(), yields_modify.mpr (configured_bare settings), lockOrUnlock_yields⟩

/-- Updating an account can set its password just as well: the driver may not
know the account yet. -/
theorem updateAccount_feeds :
    (updateAccount p h eq account).Awaits (Configured settings) (Feeding fed input) ↔
      account.protocol = "ssh" ∧ fed = Ssh.provisionCredentials h settings account ∧
        ∃ name, sanitizeUsername p account.accountId = .ok name ∧
          input = chpasswdInput name (accountPassword p settings fed) := by
  have hProvisioned := Ssh.ensureCredentials_provisioned h settings account
  have hAgain := Ssh.provisionCredentials_idem h settings account
  have hId := Ssh.provisionCredentials_accountId h settings account
  unfold updateAccount
  simp only [awaits_get_bind, awaits_lift_bind]
  constructor
  · rintro ⟨d, rfl, ⟨⟩, hProtocol, ⟨⟩, -, name, hName, hRest⟩
    rw [Ssh.unixName_provisioned] at hName
    refine ⟨by simpa using ensureSupported_ok_iff.mp hProtocol, ?_⟩
    -- an account the driver does not know is created, with its credentials completed again
    split at hRest
    · obtain ⟨-, hFed, hInput⟩ := createAccount_feeds.mp hRest
      rw [hAgain] at hFed
      rw [hId] at hInput
      exact ⟨hFed, hInput⟩
    · rcases awaits_bind.mp hRest with hSet | ⟨-, -, hEnd⟩
      · dsimp only [onlyIf] at hSet
        split at hSet
        · rcases awaits_bind.mp hSet with hFirst | ⟨-, -, hKill⟩
          · have hCall : Feeding fed input (.setPassword (Ssh.provisionCredentials h d.settings
                account) name (accountPassword p d.settings
                  (Ssh.provisionCredentials h d.settings account))) := awaits_await.mp hFirst
            obtain ⟨rfl, rfl⟩ := Prod.mk.inj (Option.some.inj hCall)
            exact ⟨rfl, name, Ssh.unixName_ok hName, rfl⟩
          · exact (call_feeds _ hKill).elim
        · exact hSet.elim
      · rcases awaits_bind.mp hEnd with hPut | ⟨-, -, hLock⟩
        · exact (awaits_modify hPut).elim
        · exact (lockOrUnlock_feeds hLock).elim
  · rintro ⟨hProtocol, rfl, name, hName, rfl⟩
    have hUnix : Ssh.unixName p account = .ok name := by
      rw [Ssh.unixName, hName]
      rfl
    refine ⟨bareDriver settings, rfl, (), ?_, (), hProvisioned, name, ?_, ?_⟩
    · exact ensureSupported_ok_iff.mpr (by simpa using hProtocol)
    · exact (Ssh.unixName_provisioned p h settings account).trans hUnix
    · refine createAccount_feeds.mpr ⟨?_, hAgain.symm, name,
        (congrArg (sanitizeUsername p) hId).trans hName, rfl⟩
      rwa [Ssh.provisionCredentials_protocol]

theorem removeUser_feeds :
    ¬ (removeUser name).Awaits (Configured settings) (Feeding fed input) := by
  unfold removeUser
  rw [awaits_bind, awaits_bind, awaits_bind, awaits_bind]
  rintro (hUid | ⟨-, -, hLock | ⟨-, -, hForget | ⟨-, -, hDelete | ⟨-, -, hDrop⟩⟩⟩⟩)
  · exact other_feeds _ hUid
  · exact lockAndKill_feeds hLock
  · exact call_feeds _ hForget
  · exact call_feeds _ hDelete
  · exact awaits_modify hDrop

theorem deleteAccount_feeds (id : String) :
    ¬ (deleteAccount p id).Awaits (Configured settings) (Feeding fed input) := by
  unfold deleteAccount
  rw [awaits_get_bind]
  rintro ⟨d, -, hDelete⟩
  rcases awaits_bind.mp hDelete with hDrop | ⟨-, -, hRemove⟩
  · exact awaits_modify hDrop
  · split at hRemove
    · split at hRemove
      · exact removeUser_feeds hRemove
      · exact hRemove
    · obtain ⟨name, -, hUser⟩ := awaits_lift_bind.mp hRemove
      exact removeUser_feeds hUser

/-- The first item with `P` is one that those before it lead up to. -/
theorem exists_split_iff {ι : Type} (P : ι → Bool) (Q : ι → Prop) (items : List ι) :
    (∃ done i rest, items = done ++ i :: rest ∧ (∀ j ∈ done, P j = true) ∧ P i = true ∧ Q i) ↔
      ∃ i ∈ items.takeWhile P, Q i := by
  constructor
  · rintro ⟨done, i, rest, rfl, hDone, hP, hQ⟩
    refine ⟨i, ?_, hQ⟩
    rw [List.takeWhile_append_of_pos hDone, List.takeWhile_cons_of_pos hP]
    exact List.mem_append_right _ List.mem_cons_self
  · rintro ⟨i, hMem, hQ⟩
    have hAll : ∀ j ∈ items.takeWhile P, P j = true := fun j hj => List.mem_takeWhile_imp hj
    obtain ⟨done, rest, hSplit⟩ := List.append_of_mem hMem
    refine ⟨done, i, rest ++ items.dropWhile P, ?_, ?_, hAll i hMem, hQ⟩
    · calc items = items.takeWhile P ++ items.dropWhile P := List.takeWhile_append_dropWhile.symm
        _ = done ++ i :: (rest ++ items.dropWhile P) := by
          rw [hSplit, List.append_assoc, List.cons_append]
    · exact fun j hj => hAll j (hSplit ▸ List.mem_append_left _ hj)

/--
**What a push feeds** is a line for each account it gets to, with the account's
name and password. A list is worked off in order and stops at the first account
of another protocol; deleting the stale accounts behind it feeds nothing.
-/
theorem program_feeds_iff {push : Push} :
    (push.program p h eq).Awaits (Configured settings) (Feeding fed input) ↔
      ∃ account ∈ push.reached settings, fed = Ssh.provisionCredentials h settings account ∧
        ∃ name, sanitizeUsername p account.accountId = .ok name ∧
          input = chpasswdInput name (accountPassword p settings fed) := by
  have hOne : ∀ a : UserAccount, [a].takeWhile (fun a => a.protocol == "ssh") =
      if a.protocol = "ssh" then [a] else [] := by
    intro a
    simp only [List.takeWhile_cons, beq_iff_eq, List.takeWhile_nil]
  -- one account is reached if it is SSH's; a list up to the first that is not
  cases push with
  | create account =>
    rw [Push.program, createAccount_feeds, Push.reached, Push.accounts, hOne]
    by_cases hProtocol : account.protocol = "ssh" <;> simp [hProtocol]
  | update account =>
    rw [Push.program, updateAccount_feeds, Push.reached, Push.accounts, hOne]
    by_cases hProtocol : account.protocol = "ssh" <;> simp [hProtocol]
  | sync accounts =>
    -- deleting feeds nothing
    have hDeletes (ids : List String) :
        ¬ (forEach (deleteAccount p) ids).Awaits (Configured settings) (Feeding fed input) := by
      rw [awaits_forEach]
      rintro ⟨-, id, -, -, -, hDelete⟩
      exact deleteAccount_feeds id hDelete
    have hProgram : ((Push.sync accounts).program p h eq).Awaits (Configured settings)
        (Feeding fed input) ↔ (forEach (createAccount p h)
          ((served settings accounts .ssh).map (Ssh.provisionCredentials h settings))).Awaits
            (Configured settings) (Feeding fed input) := by
      rw [← Ssh.created_eq]
      show (syncAccounts p h accounts).Awaits _ _ ↔ _
      unfold syncAccounts
      rw [awaits_get_bind]
      constructor
      · rintro ⟨d, rfl, hSync⟩
        rcases awaits_bind.mp hSync with hCreate | ⟨-, -, d', -, hStale⟩
        · exact hCreate
        · exact (hDeletes _ hStale).elim
      · intro hCreate
        exact ⟨bareDriver settings, rfl, awaits_bind.mpr (Or.inl hCreate)⟩
    have hReached : ((served settings accounts .ssh).map
        (Ssh.provisionCredentials h settings)).takeWhile (fun a => a.protocol == "ssh") =
          ((Push.sync accounts).reached settings).map (Ssh.provisionCredentials h settings) := by
      rw [List.takeWhile_map, Push.reached, Push.accounts]
      refine congrArg _ (congrArg (List.takeWhile · _) (funext fun a => ?_))
      rw [Function.comp_apply, Ssh.provisionCredentials_protocol]
    -- an account is reached if all before it have been created
    have hSplit := exists_split_iff (fun a : UserAccount => a.protocol == "ssh")
      (fun a => fed = Ssh.provisionCredentials h settings a ∧
        ∃ name, sanitizeUsername p a.accountId = .ok name ∧
          input = chpasswdInput name (accountPassword p settings fed))
      ((served settings accounts .ssh).map (Ssh.provisionCredentials h settings))
    simp only [beq_iff_eq] at hSplit
    rw [hProgram, awaits_forEach]
    simp only [createAccount_yields, createAccount_feeds]
    rw [hSplit, hReached]
    simp only [List.mem_map, exists_exists_and_eq_and, Ssh.provisionCredentials_idem,
      Ssh.provisionCredentials_accountId]

theorem accountPassword_provisioned (hSecret : ∀ a, '\n' ∉ (h.secret a).1.toList) :
    '\n' ∉ (accountPassword p settings (Ssh.provisionCredentials h settings account)).toList ↔
      '\n' ∉ (accountPassword p settings account).toList := by
  unfold Ssh.provisionCredentials mintPassword
  by_cases hDefault : isSet settings "default_password" = true
  · rw [if_pos hDefault]
  · rw [if_neg hDefault]
    by_cases hOwn : isSet account.settings "password" = true
    · rw [if_pos hOwn]
    · rw [if_neg hOwn]
      have hMinted : accountPassword p settings
          (account.withSetting "password" (.str (h.secret account))) = (h.secret account).1 := by
        have hTruthy : (Json.str (h.secret account).1).truthy = true := by
          simpa [Json.truthy] using (h.secret account).2
        show p.text ((Json.getD (assocSet "password" (.str (h.secret account).1) account.settings)
          "password").or _) = _
        rw [Json.getD_assocSet_self, Json.or, if_pos hTruthy, Platform.text, if_pos hTruthy,
          Platform.str]
      have hNone : accountPassword p settings account = "" := by
        unfold isSet at hDefault hOwn
        rw [accountPassword, Json.or, if_neg hOwn, Platform.text, if_neg hDefault]
      rw [hMinted, hNone]
      exact iff_of_true (hSecret account) (by simp)

/-- **What reaches `chpasswd`** is one line about the account's own user, each
time, if and only if no account the push gets to has a newline in its
password. -/
theorem fed_own_iff (hSecret : ∀ a, '\n' ∉ (h.secret a).1.toList) (push : Push) :
    (∀ account input, (push.program p h eq).Awaits (Configured settings)
        (Feeding account input) → Own p account input) ↔
      ∀ account ∈ push.reached settings,
        '\n' ∉ (accountPassword p settings account).toList := by
  simp only [program_feeds_iff]
  constructor
  · intro hOwn account hMem
    obtain ⟨cs, hName, -⟩ := sanitizeUsername_ok p account.accountId
    have hLine := hOwn _ _ ⟨account, hMem, rfl, _, hName, rfl⟩
    rw [own_iff (by rwa [Ssh.provisionCredentials_accountId])] at hLine
    exact (accountPassword_provisioned hSecret).mp hLine
  · rintro hPasswords _ _ ⟨account, hMem, rfl, name, hName, rfl⟩
    rw [own_iff (by rwa [Ssh.provisionCredentials_accountId])]
    exact (accountPassword_provisioned hSecret).mpr (hPasswords account hMem)

end Feeds

-- ---------------------------------------------------------------------------
-- A password of two lines
-- ---------------------------------------------------------------------------

/-- An account with a password, as the panel sends it. -/
def sshRaw (password : String) : Raw :=
  [("user_id", .num 1), ("username", .str "eve"), ("account_id", .str "eve"),
    ("protocol", .str "ssh"), ("settings", .dict [("password", .str password)])]

def sshAccount (password : String) : UserAccount where
  userId         := 1
  username       := "eve"
  accountId      := "eve"
  protocol       := "ssh"
  enabled        := true
  expireAt       := .null
  dataLimitBytes := .null
  settings       := [("password", .str password)]

theorem toUserAccount_sshRaw (password : String) :
    toUserAccount plainPlatform (.dict (sshRaw password)) = .ok (sshAccount password) := by
  have hText (field complaint text : String) (bound : Nat)
      (hGet : Json.getD (sshRaw password) field = .str text) (hTruthy : text ≠ "")
      (hLength : 1 ≤ text.length ∧ text.length ≤ bound) :
      checkedText plainPlatform (sshRaw password) field bound complaint = .ok text := by
    have hPlain : plainPlatform.text (.str text) = text := by
      simp [Platform.text, Platform.str, Json.truthy, hTruthy]
    rw [checkedText, hGet, hPlain, if_pos hLength]
  rw [toUserAccount, hText "username" _ "eve" 128 rfl (by decide) (by decide),
    hText "account_id" _ "eve" 256 rfl (by decide) (by decide),
    hText "protocol" _ "ssh" 64 rfl (by decide) (by decide)]
  rfl

theorem reached_sshAccount (password : String) :
    (Push.sync [sshAccount password]).reached [] = [sshAccount password] := by
  simp [Push.reached, Push.accounts, served, Ssh.credentialed, isSet, Json.getD, Json.truthy,
    sshAccount]

theorem accountPassword_sshAccount (password : String) (h : password ≠ "") :
    accountPassword plainPlatform [] (sshAccount password) = password := by
  simp [accountPassword, sshAccount, Json.getD, Json.or, Json.truthy, Platform.text, Platform.str, h]

theorem secret_willing (a : UserAccount) : '\n' ∉ (willingHost.secret a).1.toList := by
  show '\n' ∉ "secret".toList
  decide

/--
A push of one account with the password `hunter2` feeds one line, which is the
account's own.
-/
theorem fed_own_iff_hunter :
    ((Push.sync [sshAccount "hunter2"]).program plainPlatform willingHost fun _ _ => false).Awaits
        (Configured []) (Feeding (sshAccount "hunter2") "zg-eve:hunter2\n") ∧
      ∀ account input, ((Push.sync [sshAccount "hunter2"]).program plainPlatform willingHost
        fun _ _ => false).Awaits (Configured []) (Feeding account input) →
          Own plainPlatform account input := by
  constructor
  · refine program_feeds_iff.mpr ⟨sshAccount "hunter2", ?_, rfl, "zg-eve", rfl, ?_⟩
    · rw [reached_sshAccount]
      exact List.mem_singleton_self _
    · rw [accountPassword_sshAccount _ (by decide)]
      rfl
  · refine (fed_own_iff secret_willing (Push.sync [sshAccount "hunter2"])).mpr ?_
    intro account hMem
    rw [reached_sshAccount] at hMem
    obtain rfl := List.mem_singleton.mp hMem
    rw [accountPassword_sshAccount _ (by decide)]
    decide

/-- The panel sends a password of two lines; it is accepted, and `chpasswd` is
told to change root's. -/
theorem password_injects :
    toUserAccount plainPlatform (.dict (sshRaw "x\nroot:owned")) =
        .ok (sshAccount "x\nroot:owned") ∧
      ((Push.sync [sshAccount "x\nroot:owned"]).program plainPlatform willingHost
        fun _ _ => false).Awaits (Configured [])
          (Feeding (sshAccount "x\nroot:owned") "zg-eve:x\nroot:owned\n") ∧
      lines "zg-eve:x\nroot:owned\n".toList = ["zg-eve:x".toList, "root:owned".toList] ∧
      ¬ Own plainPlatform (sshAccount "x\nroot:owned") "zg-eve:x\nroot:owned\n" := by
  have hName : sanitizeUsername plainPlatform "eve" = .ok "zg-eve" := rfl
  have hPassword := accountPassword_sshAccount "x\nroot:owned" (by decide)
  have hInput : "zg-eve:x\nroot:owned\n" = chpasswdInput "zg-eve" "x\nroot:owned" := rfl
  refine ⟨toUserAccount_sshRaw _, ?_, by decide, ?_⟩
  · refine program_feeds_iff.mpr ⟨sshAccount "x\nroot:owned", ?_, rfl, "zg-eve", hName, ?_⟩
    · rw [reached_sshAccount]
      exact List.mem_singleton_self _
    · rw [hPassword]
      exact hInput
  · rw [hInput, own_iff hName]
    decide

end ZagrosNode.Accounts.Passwords
