import ZagrosNode.Bandwidth.Slots

/-!
# ZagrosNode — the table that marks packets

The limiter loads one `nft` table. Its chains give packets and connections the
marks that the filters then look for: a user's own for traffic from one of the
user's addresses or unix users, and those of the quarantine for SoftEther
traffic that nobody is known for.

A packet that arrives goes through the prerouting chain, and if it is not for
this host through the forward chain as well; what this host sends goes through
the output chain. The prerouting chain looks at ports only. It cannot tell a
SoftEther client from anybody whose packets to port 443 of some other host pass
through, so those connections carry a mark of the quarantine too, unless the
forward chain overwrites it with a user's.

`nftScript` is the text of `_nft_script`, rule for rule and in its order, with each rule
as the matches and the marks it has. `runChain` is what `nft` does with a chain: the
rules in their order until one returns. A chain of the table accepts what no rule ends.

The statements about chains are about lists of rules of one kind. In the forward chain a
rule that applies ends the chain, so the first user with the address has the packet; in
the output chain none does, so the last one has it. `forwardClass` and `outputClass` say
this without rules, and `run_forward` and `run_output` that the table does it.

* `tagged` — the marks a packet of a class leaves with. The mark of the connection is
  what its later packets and its answers are known by, on the other direction's hook.
* `Policed` — the action that is met, and no other one. A packet that no filter matches
  is not policed, so the class `free` is a statement, too.

Main results:

* `run_forward` — what becomes of a packet that arrives and is passed on.
* `run_output` — what becomes of the first packet of a connection from this host.
* `connections_policed` — the police actions that new connections meet: those of
  the user they belong to, those of the quarantine, or none; and for nobody's
  connection to one of SoftEther's ports the upload action of the quarantine,
  which its answers meet.
* `softether_quarantined` — what SoftEther is sent, and what it answers, stays in
  the quarantine that all its sessions share.
-/

namespace ZagrosNode.Bandwidth

open ZagrosNode.Lib ZagrosNode.Cores ZagrosNode.Security ZagrosNode.Accounts

-- ---------------------------------------------------------------------------
-- Packets and rules
-- ---------------------------------------------------------------------------

/-- A packet with the mark of its connection. -/
structure Packet where
  family    : Family
  mark      : Nat
  ctMark    : Nat
  /-- the unix user of the socket it is from -/
  skuid     : Option Int
  iifname   : String
  saddr     : String
  transport : String
  sport     : Int
  dport     : Int

inductive Match
  | ctMark (mark : Nat)
  | metaMark (mark : Nat)
  | skuid (uid : Int)
  | iifname (name : String)
  | saddr (address : String)
  | sport (transport : String) (port : Int)
  | dport (transport : String) (port : Int)
  deriving DecidableEq

def Match.holds (p : Packet) : Match → Bool
  | .ctMark mark          => decide (p.ctMark = mark)
  | .metaMark mark        => decide (p.mark = mark)
  | .skuid uid            => decide (p.skuid = some uid)
  | .iifname name         => decide (p.iifname = name)
  | .saddr address        => decide (p.saddr = address)
  | .sport transport port => decide (p.transport = transport ∧ p.sport = port)
  | .dport transport port => decide (p.transport = transport ∧ p.dport = port)

/-- What a rule asks for, the marks it sets, and whether it ends the chain. -/
structure Rule where
  asks    : List Match
  ctMark  : Option Nat
  mark    : Option Nat
  returns : Bool
  deriving DecidableEq

def Rule.applies (p : Packet) (r : Rule) : Bool := r.asks.all (Match.holds p)

def Rule.sets (p : Packet) (r : Rule) : Packet :=
  { p with ctMark := r.ctMark.getD p.ctMark, mark := r.mark.getD p.mark }

/-- A chain whose policy is to accept. -/
def runChain : List Rule → Packet → Packet
  | [], p        => p
  | r :: rest, p =>
    if r.applies p then
      if r.returns then r.sets p else runChain rest (r.sets p)
    else runChain rest p

/-- The chains of the table. -/
structure Script where
  output     : List Rule
  forward    : List Rule
  prerouting : List Rule
  deriving DecidableEq

-- ---------------------------------------------------------------------------
-- `_nft_script`
-- ---------------------------------------------------------------------------

/-- A SoftEther session the limiter has seen in the log of the server. -/
structure Endpoint where
  accountId  : String
  clientIp   : String
  clientPort : Int
  serverPort : Int
  transport  : String

/-- What the limiter knows of SoftEther. -/
structure SoftEther where
  /-- `_owners` -/
  owners    : Dict String Int
  /-- `_endpoints` -/
  endpoints : List Endpoint
  /-- `_soft_tap` -/
  tap       : Option String

/-- The limiter of a node is a new one each time, and its desired rules come
from elsewhere: it knows no owners and no endpoints. -/
def SoftEther.ofNode (tap : Option String) : SoftEther := ⟨Dict.empty, [], tap⟩

def byId (limits : List UserLimit) : List UserLimit :=
  limits.mergeSort fun a b => decide (a.userId ≤ b.userId)

/-- `active`, in the order of the ids -/
def activeUsers (rules : Dict Int UserLimit) : List UserLimit :=
  byId (rules.values.filter UserLimit.limited)

/-- `soft_guard` -/
def softGuard (rules : Dict Int UserLimit) : Bool := !(softLimits rules.values).isEmpty

/-- `marked_users`, in the order of the ids -/
def markedUsers (soft : SoftEther) (rules : Dict Int UserLimit) : List UserLimit :=
  let endpointUsers :=
    if softGuard rules then soft.endpoints.filterMap fun e => soft.owners.get? e.accountId else []
  byId (rules.values.filter fun limit => limit.limited || endpointUsers.contains limit.userId)

/-- A socket of one of the user's unix users. -/
def socketRule (marks : Marks) (uid : Int) : Rule :=
  ⟨[.skuid uid], some marks.base, some marks.up, false⟩

/-- An inner address of the user. -/
def sourceRule (marks : Marks) (source : String) : Rule :=
  ⟨[.saddr source], some marks.base, some marks.up, true⟩

def outputRules (limit : UserLimit) : Except String (List Rule) := do
  let marks ← marksForUser limit.userId
  .ok (⟨[.ctMark marks.outer], none, some marks.down, false⟩ ::
    if limit.limited then
      ⟨[.metaMark marks.base], some marks.base, some marks.up, false⟩ ::
        limit.sshUids.eraseDups.mergeSort.map (socketRule marks)
    else [])

def forwardRules (limit : UserLimit) : Except String (List Rule) := do
  let marks ← marksForUser limit.userId
  .ok ((limit.innerSources.eraseDups.mergeSort fun a b => decide (a ≤ b)).map (sourceRule marks))

/-- The order of endpoints in the table. -/
def Endpoint.before (a b : Endpoint) : Bool :=
  decide (a.clientIp < b.clientIp ∨ (a.clientIp = b.clientIp ∧ (a.clientPort < b.clientPort ∨
    (a.clientPort = b.clientPort ∧ (a.serverPort < b.serverPort ∨
      (a.serverPort = b.serverPort ∧ a.accountId ≤ b.accountId))))))

/-- The rule of one endpoint, where its owner is marked. -/
def endpointRules (soft : SoftEther) (marked : List UserLimit) (e : Endpoint) :
    Except String (List Rule) :=
  match soft.owners.get? e.accountId with
  | none     => .ok []
  | some uid =>
    if marked.any fun limit => decide (limit.userId = uid) then do
      let marks ← marksForUser uid
      .ok [⟨[.saddr e.clientIp, .sport e.transport e.clientPort, .dport e.transport e.serverPort],
        some marks.outer, none, true⟩]
    else .ok []

/-- SoftEther's own ports. -/
def softPorts : List (String × Int) :=
  [("tcp", 443), ("tcp", 992), ("tcp", 1194), ("tcp", 5555), ("tcp", 50154), ("udp", 500),
    ("udp", 1701), ("udp", 4500)]

/-- `_nft_script` -/
def nftScript (soft : SoftEther) (rules : Dict Int UserLimit) : Except String Script := do
  let marked := markedUsers soft rules
  let guard := softGuard rules
  let output ← marked.mapM outputRules
  let forward ← (activeUsers rules).mapM forwardRules
  let prerouting ← (soft.endpoints.mergeSort Endpoint.before).mapM (endpointRules soft marked)
  .ok
    { output := output.flatten ++
        if guard then
          [⟨[.ctMark quarantineMarks.outer], none, some quarantineMarks.down, false⟩,
            ⟨[.ctMark quarantineMarks.base], none, some quarantineMarks.down, false⟩]
        else []
      forward := forward.flatten ++
        match guard, soft.tap with
        | true, some tap =>
          [⟨[.iifname tap], some quarantineMarks.base, some quarantineMarks.up, false⟩]
        | _, _           => []
      prerouting := prerouting.flatten ++
        if guard then
          softPorts.map fun e => ⟨[.dport e.1 e.2], some quarantineMarks.outer, none, false⟩
        else [] }

-- ---------------------------------------------------------------------------
-- Chains
-- ---------------------------------------------------------------------------

section Chains

variable {p : Packet} {xs ys : List Rule}

/-- Rules that end the chain: the first that applies decides. -/
theorem runChain_returning (h : ∀ r ∈ xs, r.returns = true) :
    runChain (xs ++ ys) p =
      (xs.find? (Rule.applies p)).elim (runChain ys p) fun r => r.sets p := by
  induction xs with
  | nil => rfl
  | cons r rest ih =>
    rw [List.cons_append, runChain, List.find?_cons, h r List.mem_cons_self]
    by_cases hApplies : r.applies p = true
    · rw [if_pos hApplies, hApplies]
      rfl
    · rw [if_neg hApplies, Bool.eq_false_iff.mpr hApplies]
      exact ih fun r' hMem => h r' (List.mem_cons_of_mem r hMem)

/-- Rules that do not end the chain: the others see what they have set. -/
theorem runChain_passing (h : ∀ r ∈ xs, r.returns = false) :
    runChain (xs ++ ys) p = runChain ys (runChain xs p) := by
  induction xs generalizing p with
  | nil => rfl
  | cons r rest ih =>
    have hRest := fun r' hMem => h r' (List.mem_cons_of_mem r hMem)
    rw [List.cons_append, runChain, runChain, h r List.mem_cons_self]
    split
    · exact ih hRest
    · exact ih hRest

/-- Rules of which none applies do nothing. -/
theorem runChain_silent (h : ∀ r ∈ xs, r.applies p = false) : runChain xs p = p := by
  induction xs with
  | nil => rfl
  | cons r rest ih =>
    rw [runChain, h r List.mem_cons_self]
    exact ih fun r' hMem => h r' (List.mem_cons_of_mem r hMem)

end Chains

-- ---------------------------------------------------------------------------
-- Whose traffic a packet is
-- ---------------------------------------------------------------------------

/-- Where a packet belongs. `atPort` is a packet of nobody in particular that
is passed on to one of SoftEther's ports on some other host: it is taken for
SoftEther when it arrives. -/
inductive Class
  | user (limit : UserLimit)
  | quarantine
  | atPort
  | free

/-- The marks of a user whose id has some. -/
def UserLimit.marks (limit : UserLimit) : Marks :=
  (marksForUser limit.userId).toOption.getD quarantineMarks

/-- The packet with the marks of its class, on its way out. -/
def Packet.tagged (p : Packet) : Class → Packet
  | .user limit => { p with ctMark := limit.marks.base, mark := limit.marks.up }
  | .quarantine => { p with ctMark := quarantineMarks.base, mark := quarantineMarks.up }
  | .atPort     => { p with ctMark := quarantineMarks.outer }
  | .free       => p

/-- A packet that is passed on: the first user with its address; without one, while
SoftEther is guarded, the quarantine if it comes from SoftEther's own interface, and what
goes to one of its ports is taken for SoftEther. -/
def forwardClass (soft : SoftEther) (rules : Dict Int UserLimit) (p : Packet) : Class :=
  ((activeUsers rules).find? fun limit => limit.innerSources.contains p.saddr).elim
    (if softGuard rules then
      if soft.tap = some p.iifname then .quarantine
      else if softPorts.contains (p.transport, p.dport) then .atPort
      else .free
    else .free) .user

/-- The first packet of a connection from this host: the last user with its unix user, and
without one the user whose mark its socket has. -/
def outputClass (rules : Dict Int UserLimit) (p : Packet) : Class :=
  ((activeUsers rules).reverse.find? fun limit => limit.sshUids.any fun uid =>
      decide (p.skuid = some uid)).elim
    (((activeUsers rules).find? fun limit => decide (p.mark = limit.marks.base)).elim .free .user)
    .user

section Forward

variable {soft : SoftEther} {rules : Dict Int UserLimit} {p : Packet}

theorem marks_ok {limit : UserLimit} {marks : Marks} (h : marksForUser limit.userId = .ok marks) :
    limit.marks = marks := by
  rw [UserLimit.marks, h]
  rfl

theorem applies_sourceRule {marks : Marks} {source : String} :
    (sourceRule marks source).applies p = decide (p.saddr = source) := by
  rw [Rule.applies, sourceRule, List.all_cons, List.all_nil, Bool.and_true, Match.holds]

theorem find?_sourceRules {marks : Marks} {sources : List String} :
    (sources.map (sourceRule marks)).find? (Rule.applies p) =
      if sources.contains p.saddr then some (sourceRule marks p.saddr) else none := by
  induction sources with
  | nil => rfl
  | cons source rest ih =>
    rw [List.map_cons, List.find?_cons, applies_sourceRule, List.contains_cons]
    by_cases hSource : p.saddr = source
    · simp [hSource]
    · rw [decide_eq_false hSource, ih]
      simp [hSource]

theorem run_forwardRules {limits : List UserLimit} {chains : List (List Rule)} {rest : List Rule}
    (h : limits.mapM forwardRules = .ok chains) :
    runChain (chains.flatten ++ rest) p =
      (limits.find? fun limit => limit.innerSources.contains p.saddr).elim (runChain rest p)
        fun limit => p.tagged (.user limit) := by
  induction limits generalizing chains with
  | nil =>
    obtain rfl := Except.ok.inj h
    rfl
  | cons limit others ih =>
    obtain ⟨first, later, hFirst, hLater, rfl⟩ := mapM_cons_ok_iff.mp h
    obtain ⟨marks, hMarks, hEq⟩ := bind_ok_iff.mp hFirst
    obtain rfl := Except.ok.inj hEq
    -- the rules of a user hold the user's addresses, sorted and without repetitions
    have hMem : ((limit.innerSources.eraseDups.mergeSort fun a b => decide (a ≤ b)).contains
        p.saddr) = limit.innerSources.contains p.saddr := by
      rw [Bool.eq_iff_iff, List.contains_iff_mem, List.contains_iff_mem,
        (List.mergeSort_perm _ _).mem_iff, List.mem_eraseDups]
    rw [List.flatten_cons, List.append_assoc, runChain_returning, find?_sourceRules, hMem,
      List.find?_cons]
    -- the first user with the address marks the packet, and the chain returns
    · by_cases hOwn : limit.innerSources.contains p.saddr = true
      · rw [if_pos hOwn, hOwn]
        show _ = p.tagged (.user limit)
        rw [Packet.tagged, marks_ok hMarks]
        rfl
      · rw [if_neg hOwn, Bool.eq_false_iff.mpr hOwn]
        exact ih hLater
    · intro r hRule
      obtain ⟨source, -, rfl⟩ := List.mem_map.mp hRule
      rfl

/-- What becomes of a packet from outside. -/
theorem run_prerouting {tap : Option String} {script : Script}
    (h : nftScript (SoftEther.ofNode tap) rules = .ok script) :
    runChain script.prerouting p =
      if softGuard rules && softPorts.contains (p.transport, p.dport) then
        { p with ctMark := quarantineMarks.outer }
      else p := by
  -- the rules of the ports do not return, so each port is looked at
  have hPorts (ports : List (String × Int)) :
      runChain (ports.map fun e => ⟨[.dport e.1 e.2], some quarantineMarks.outer, none, false⟩) p =
        if ports.contains (p.transport, p.dport) then
          { p with ctMark := quarantineMarks.outer }
        else p := by
    induction ports generalizing p with
    | nil => rfl
    | cons port rest ih =>
      rw [List.map_cons, runChain, List.contains_cons]
      by_cases hPort : (p.transport, p.dport) = port
      · subst hPort
        simp [Rule.applies, Match.holds, Rule.sets, ih]
      · have hOther : ¬ (p.transport = port.1 ∧ p.dport = port.2) := fun hEq =>
          hPort (Prod.ext hEq.1 hEq.2)
        rw [if_neg (by simpa [Rule.applies, Match.holds] using hOther), ih]
        simp [hPort]
  unfold nftScript at h
  simp only [bind_ok_iff] at h
  obtain ⟨output, -, forward, -, prerouting, hPrerouting, hEq⟩ := h
  rw [← Except.ok.inj hEq]
  -- a node's limiter has been told of no endpoint, so there are no rules of sessions
  have hNone : (SoftEther.ofNode tap).endpoints.mergeSort Endpoint.before = [] := List.mergeSort_nil
  rw [hNone] at hPrerouting
  obtain rfl : [] = prerouting := Except.ok.inj hPrerouting
  show runChain (if softGuard rules = true then _ else []) p = _
  cases softGuard rules with
  | false => rfl
  | true  => exact hPorts softPorts

/-- The forward chain by itself, on a packet with any mark of its connection. -/
theorem run_forwardChain {script : Script} (h : nftScript soft rules = .ok script) :
    runChain script.forward p =
      ((activeUsers rules).find? fun limit => limit.innerSources.contains p.saddr).elim
        (if softGuard rules && decide (soft.tap = some p.iifname) then p.tagged .quarantine else p)
        fun limit => p.tagged (.user limit) := by
  unfold nftScript at h
  simp only [bind_ok_iff] at h
  obtain ⟨output, -, forward, hForward, prerouting, -, hEq⟩ := h
  rw [← Except.ok.inj hEq]
  rw [run_forwardRules hForward]
  cases (activeUsers rules).find? fun limit => limit.innerSources.contains p.saddr with
  -- a user's packet has returned before the rule of the tap device
  | some limit => rfl
  | none =>
    -- the tap device is asked only where SoftEther is limited and the device is known
    show runChain _ p = if _ then _ else _
    cases hGuard : softGuard rules with
    | false => rfl
    | true =>
      cases hTap : soft.tap with
      | none => rfl
      | some tap =>
        show runChain [_] p = _
        rw [runChain, runChain, Rule.applies, List.all_cons, List.all_nil, Bool.and_true,
          Match.holds]
        by_cases hName : p.iifname = tap
        · rw [decide_eq_true hName, hName]
          simp [Packet.tagged, Rule.sets]
        · rw [decide_eq_false hName]
          have hNe : ¬ (some tap = some p.iifname) := fun hEq => hName (Option.some.inj hEq).symm
          rw [decide_eq_false hNe]
          rfl

/-- **What becomes of a packet that arrives and is passed on.** The forward chain overwrites
what the prerouting chain has set, for a user's packets and for those from SoftEther's own
interface; for others the mark of the port stays. -/
theorem run_forward {tap : Option String} {script : Script}
    (h : nftScript (SoftEther.ofNode tap) rules = .ok script) :
    runChain script.forward (runChain script.prerouting p) =
      p.tagged (forwardClass (SoftEther.ofNode tap) rules p) := by
  rw [run_forwardChain h, run_prerouting h, forwardClass]
  by_cases hPort : (softGuard rules && softPorts.contains (p.transport, p.dport)) = true
  · rw [if_pos hPort]
    obtain ⟨hGuard, hListed⟩ := Bool.and_eq_true_iff.mp hPort
    -- the forward chain does not look at the mark of the connection
    show ((activeUsers rules).find? fun limit => limit.innerSources.contains p.saddr).elim _ _ = _
    cases (activeUsers rules).find? fun limit => limit.innerSources.contains p.saddr with
    | some limit => rfl
    | none =>
      rw [Option.elim_none, Option.elim_none, hGuard, Bool.true_and, if_pos rfl, hListed]
      by_cases hTap : (SoftEther.ofNode tap).tap = some p.iifname
      · rw [if_pos (decide_eq_true hTap), if_pos hTap]
        rfl
      · rw [if_neg (by simpa using hTap), if_neg hTap, if_pos rfl]
        rfl
  · rw [if_neg hPort]
    cases (activeUsers rules).find? fun limit => limit.innerSources.contains p.saddr with
    | some limit => rfl
    | none =>
      rw [Option.elim_none, Option.elim_none]
      cases hGuard : softGuard rules with
      | false => rfl
      | true =>
        rw [hGuard, Bool.true_and] at hPort
        rw [Bool.true_and, if_pos rfl, if_neg hPort]
        by_cases hTap : (SoftEther.ofNode tap).tap = some p.iifname
        · rw [if_pos (decide_eq_true hTap), if_pos hTap]
        · rw [if_neg (by simpa using hTap), if_neg hTap]
          rfl

end Forward

-- ---------------------------------------------------------------------------
-- The numbers of the marks
-- ---------------------------------------------------------------------------

section Marks

variable {limit other : UserLimit} {m : Marks}

theorem marks_eq (h : marksForUser limit.userId = .ok m) :
    limit.marks =
      ⟨markPrefix + 256 * limit.userId.toNat, markPrefix + 256 * limit.userId.toNat + 64,
        markPrefix + 256 * limit.userId.toNat + 1, markPrefix + 256 * limit.userId.toNat + 2⟩ := by
  obtain ⟨hPos, hLe⟩ := marksForUser_ok h
  obtain ⟨m', h', hList⟩ := marksForUser_eq hPos hLe
  rw [marks_ok h']
  obtain ⟨base, outer, up, down⟩ := m'
  simp only [Marks.toList, List.cons.injEq, and_true] at hList
  obtain ⟨rfl, rfl, rfl, rfl⟩ := hList
  rfl

theorem markPrefix_mod : markPrefix % 256 = 0 := rfl

theorem base_mod (h : marksForUser limit.userId = .ok m) : limit.marks.base % 256 = 0 := by
  rw [marks_eq h, Nat.add_mul_mod_self_left, markPrefix_mod]

theorem up_mod (h : marksForUser limit.userId = .ok m) : limit.marks.up % 256 = 1 := by
  rw [marks_eq h]
  show (markPrefix + 256 * limit.userId.toNat + 1) % 256 = 1
  have := markPrefix_mod
  omega

theorem outer_mod (h : marksForUser limit.userId = .ok m) : limit.marks.outer % 256 = 64 := by
  rw [marks_eq h]
  show (markPrefix + 256 * limit.userId.toNat + 64) % 256 = 64
  have := markPrefix_mod
  omega

end Marks

section Output

variable {rules : Dict Int UserLimit} {p : Packet}

/-- The packet is from a socket of one of the user's unix users. -/
def UserLimit.ownsSocket (p : Packet) (limit : UserLimit) : Bool :=
  limit.sshUids.any fun uid => decide (p.skuid = some uid)

/-- What the rules of one limited user do. -/
def Packet.claimed (p : Packet) (limit : UserLimit) : Packet :=
  if limit.ownsSocket p || decide (p.mark = limit.marks.base) then p.tagged (.user limit) else p

theorem run_socketRules {marks : Marks} {uids : List Int} :
    runChain (uids.map (socketRule marks)) p =
      if uids.any fun uid => decide (p.skuid = some uid) then
        { p with ctMark := marks.base, mark := marks.up }
      else p := by
  induction uids generalizing p with
  | nil => rfl
  | cons uid rest ih =>
    have hApplies : (socketRule marks uid).applies p = decide (p.skuid = some uid) := by
      rw [Rule.applies, socketRule, List.all_cons, List.all_nil, Bool.and_true, Match.holds]
    rw [List.map_cons, runChain, hApplies, List.any_cons]
    by_cases hUid : p.skuid = some uid
    · have hGoesOn : ¬ (socketRule marks uid).returns = true := Bool.false_ne_true
      rw [if_pos (decide_eq_true hUid), if_neg hGoesOn, ih, decide_eq_true hUid,
        Bool.true_or, if_pos rfl]
      split
      · rfl
      · rfl
    · rw [if_neg (by simpa using hUid), ih, decide_eq_false hUid, Bool.false_or]

theorem run_outputRules {limits : List UserLimit} {chains : List (List Rule)} {rest : List Rule}
    (hLimited : ∀ limit ∈ limits, limit.limited = true)
    (hOuter : ∀ limit ∈ limits, p.ctMark ≠ limit.marks.outer)
    (h : limits.mapM outputRules = .ok chains) :
    runChain (chains.flatten ++ rest) p = runChain rest (limits.foldl Packet.claimed p) := by
  induction limits generalizing chains p with
  | nil =>
    obtain rfl := Except.ok.inj h
    rfl
  | cons limit others ih =>
    obtain ⟨first, later, hFirst, hLater, rfl⟩ := mapM_cons_ok_iff.mp h
    obtain ⟨marks, hMarks, hEq⟩ := bind_ok_iff.mp hFirst
    obtain rfl := Except.ok.inj hEq
    rw [if_pos (hLimited limit List.mem_cons_self), ← marks_ok hMarks]
    -- the sockets' users are sorted and freed of repetitions as well
    have hAny : limit.sshUids.eraseDups.mergeSort.any (fun uid => decide (p.skuid = some uid)) =
        limit.ownsSocket p := by
      rw [UserLimit.ownsSocket, Bool.eq_iff_iff, List.any_eq_true, List.any_eq_true]
      refine exists_congr fun uid => and_congr_left fun _ => ?_
      rw [(List.mergeSort_perm _ _).mem_iff, List.mem_eraseDups]
    have hHere := hOuter limit List.mem_cons_self
    -- the three kinds of rules of one user, one after the other
    have hUser : runChain (⟨[.ctMark limit.marks.outer], none, some limit.marks.down, false⟩ ::
        ⟨[.metaMark limit.marks.base], some limit.marks.base, some limit.marks.up, false⟩ ::
        limit.sshUids.eraseDups.mergeSort.map (socketRule limit.marks)) p = p.claimed limit := by
      rw [runChain, if_neg (by simpa [Rule.applies, Match.holds] using hHere), runChain,
        run_socketRules, run_socketRules, hAny, Packet.claimed]
      have hSame : limit.sshUids.eraseDups.mergeSort.any
          (fun uid => decide ((Rule.sets p ⟨[.metaMark limit.marks.base], some limit.marks.base,
            some limit.marks.up, false⟩).skuid = some uid)) = limit.ownsSocket p := hAny
      rw [hSame]
      by_cases hSocket : limit.ownsSocket p = true
      · rw [hSocket]
        simp [Rule.sets, Packet.tagged]
      · rw [Bool.eq_false_iff.mpr hSocket, Bool.false_or]
        simp [Rule.applies, Match.holds, Rule.sets, Packet.tagged]
    have hPassing : ∀ r ∈ (⟨[.ctMark limit.marks.outer], none, some limit.marks.down, false⟩ ::
        ⟨[.metaMark limit.marks.base], some limit.marks.base, some limit.marks.up, false⟩ ::
        limit.sshUids.eraseDups.mergeSort.map (socketRule limit.marks) : List Rule),
        r.returns = false := by
      intro r hRule
      rcases List.mem_cons.mp hRule with rfl | hRule
      · rfl
      · rcases List.mem_cons.mp hRule with rfl | hRule
        · rfl
        · obtain ⟨uid, -, rfl⟩ := List.mem_map.mp hRule
          rfl
    -- a packet that this user has claimed is still no answer on another user's connection
    have hClaimed : ∀ l ∈ others, (p.claimed limit).ctMark ≠ l.marks.outer := by
      intro l hMem
      unfold Packet.claimed
      split
      · -- the mark of a user's connections is no outer mark
        obtain ⟨chain, -, hChain⟩ := mem_of_mapM_left hLater hMem
        obtain ⟨m, hm, -⟩ := bind_ok_iff.mp hChain
        have hOther := outer_mod hm
        have hOwn := base_mod hMarks
        exact fun hEq : limit.marks.base = l.marks.outer => by omega
      · exact hOuter l (List.mem_cons_of_mem limit hMem)
    rw [List.flatten_cons, List.append_assoc, runChain_passing hPassing, hUser, List.foldl_cons]
    exact ih (fun l hMem => hLimited l (List.mem_cons_of_mem limit hMem)) hClaimed hLater

/-- Of several users the last with the unix user decides. -/
theorem foldl_claimed {limits : List UserLimit}
    (hMarks : ∀ limit ∈ limits, ∃ m, marksForUser limit.userId = .ok m) :
    limits.foldl Packet.claimed p =
      p.tagged ((limits.reverse.find? (UserLimit.ownsSocket p)).elim
        ((limits.find? fun limit => decide (p.mark = limit.marks.base)).elim .free .user)
        .user) := by
  induction limits using List.reverseRecOn with
  | nil => rfl
  | append_singleton limits limit ih =>
    have hEarlier := fun l hMem => hMarks l (List.mem_append_left _ hMem)
    obtain ⟨m, hm⟩ := hMarks limit (List.mem_append_right _ (List.mem_singleton.mpr rfl))
    -- a packet marked by an earlier user has no mark that a rule looks for
    have hUp : ∀ l ∈ limits, l.marks.up ≠ limit.marks.base := by
      intro l hMem hEq
      obtain ⟨m', hm'⟩ := hEarlier l hMem
      have hOne := up_mod hm'
      have hZero := base_mod hm
      omega
    rw [List.foldl_append, ih hEarlier, List.foldl_cons, List.foldl_nil, List.reverse_append,
      List.reverse_singleton, List.singleton_append, List.find?_cons, List.find?_append]
    by_cases hSocket : limit.ownsSocket p = true
    · rw [hSocket]
      have hStill : ∀ c, limit.ownsSocket (p.tagged c) = true := fun c => by
        cases c <;> exact hSocket
      rw [Packet.claimed, hStill, Bool.true_or, if_pos rfl]
      generalize (limits.reverse.find? (UserLimit.ownsSocket p)).elim _ _ = c
      cases c <;> rfl
    · have hStill : ∀ c, limit.ownsSocket (p.tagged c) = false := fun c => by
        cases c <;> exact Bool.eq_false_iff.mpr hSocket
      rw [Bool.eq_false_iff.mpr hSocket, Packet.claimed, hStill, Bool.false_or]
      have hMarked : ∀ l ∈ limits, (if decide ((p.tagged (.user l)).mark = limit.marks.base) = true
          then (p.tagged (.user l)).tagged (.user limit) else p.tagged (.user l)) =
            p.tagged (.user l) := by
        intro l hMem
        have hNe : (p.tagged (.user l)).mark ≠ limit.marks.base := hUp l hMem
        rw [if_neg (by simpa using hNe)]
      cases hFound : limits.reverse.find? (UserLimit.ownsSocket p) with
      | some l =>
        exact hMarked l (List.mem_reverse.mp (List.mem_of_find?_eq_some hFound))
      | none =>
        cases hBase : limits.find? fun limit => decide (p.mark = limit.marks.base) with
        | some l => exact hMarked l (List.mem_of_find?_eq_some hBase)
        | none =>
          show (if decide (p.mark = limit.marks.base) = true then p.tagged (.user limit) else p) =
            p.tagged (([limit].find? fun limit => decide (p.mark = limit.marks.base)).elim
              .free .user)
          rw [List.find?_cons]
          by_cases hMark : p.mark = limit.marks.base
          · rw [if_pos (decide_eq_true hMark), decide_eq_true hMark]
            rfl
          · rw [if_neg (by simpa using hMark), decide_eq_false hMark]
            rfl

theorem mem_activeUsers {limit : UserLimit} :
    limit ∈ activeUsers rules ↔ limit ∈ rules.values ∧ limit.limited = true := by
  rw [activeUsers, byId, (List.mergeSort_perm _ _).mem_iff, List.mem_filter]

theorem filtered_of_active {limit : UserLimit} (h : limit ∈ activeUsers rules) :
    limit ∈ filterUsers rules := by
  obtain ⟨hMem, hLimited⟩ := mem_activeUsers.mp h
  rw [mem_filterUsers, filtered, hLimited, Bool.true_or]
  exact ⟨hMem, rfl⟩

theorem markedUsers_ofNode (tap : Option String) (rules : Dict Int UserLimit) :
    markedUsers (SoftEther.ofNode tap) rules = activeUsers rules := by
  have hNobody : (if softGuard rules = true then
      (SoftEther.ofNode tap).endpoints.filterMap fun e =>
        (SoftEther.ofNode tap).owners.get? e.accountId else []) = [] := by
    split
    · rfl
    · rfl
  have hEach : (fun limit : UserLimit => limit.limited || ([] : List Int).contains limit.userId) =
      UserLimit.limited := by
    funext limit
    exact Bool.or_false _
  rw [markedUsers, hNobody, hEach, activeUsers]

/--
**What becomes of the first packet of a connection from this host.** It is
marked for the last limited user whose process has the socket, because a later
user's rule overwrites an earlier one's mark; without one it is marked for the
user whose mark the socket itself has set.
-/
theorem run_output {tap : Option String} {script : Script}
    (hRange : ∀ a ∈ filterUsers rules, a.userId ≤ 11133) (hNew : p.ctMark = 0)
    (h : nftScript (SoftEther.ofNode tap) rules = .ok script) :
    runChain script.output p = p.tagged (outputClass rules p) := by
  unfold nftScript at h
  simp only [bind_ok_iff, markedUsers_ofNode] at h
  obtain ⟨output, hOutput, forward, -, prerouting, -, hEq⟩ := h
  rw [← Except.ok.inj hEq]
  have hMarks : ∀ limit ∈ activeUsers rules, ∃ m, marksForUser limit.userId = .ok m := by
    intro limit hMem
    obtain ⟨chain, -, hChain⟩ := mem_of_mapM_left hOutput hMem
    obtain ⟨m, hm, -⟩ := bind_ok_iff.mp hChain
    exact ⟨m, hm⟩
  have hOuter : ∀ limit ∈ activeUsers rules, p.ctMark ≠ limit.marks.outer := by
    intro limit hMem hEq
    obtain ⟨m, hm⟩ := hMarks limit hMem
    have := outer_mod hm
    omega
  rw [run_outputRules (fun _ hMem => (mem_activeUsers.mp hMem).2) hOuter hOutput,
    foldl_claimed hMarks]
  show runChain _ (p.tagged (outputClass rules p)) = _
  -- the marks of the quarantine are nobody's
  have hCt : (p.tagged (outputClass rules p)).ctMark ≠ quarantineMarks.outer ∧
      (p.tagged (outputClass rules p)).ctMark ≠ quarantineMarks.base := by
    have hUser : ∀ limit ∈ activeUsers rules, limit.marks.base ≠ quarantineMarks.outer ∧
        limit.marks.base ≠ quarantineMarks.base := by
      intro limit hMem
      obtain ⟨m, hm⟩ := hMarks limit hMem
      have hId := hRange limit (filtered_of_active hMem)
      have hPos := (marksForUser_ok hm).1
      rw [marks_eq hm]
      simp only [quarantineMarks, markPrefix]
      omega
    have hFree : p.ctMark ≠ quarantineMarks.outer ∧ p.ctMark ≠ quarantineMarks.base := by
      rw [hNew]
      decide
    unfold outputClass
    cases hSocket : (activeUsers rules).reverse.find? fun limit => limit.sshUids.any fun uid =>
        decide (p.skuid = some uid) with
    | some limit => exact hUser limit (List.mem_reverse.mp (List.mem_of_find?_eq_some hSocket))
    | none =>
      cases hBase : (activeUsers rules).find? fun limit => decide (p.mark = limit.marks.base) with
      | some limit => exact hUser limit (List.mem_of_find?_eq_some hBase)
      | none => exact hFree
  refine runChain_silent fun r hRule => ?_
  split at hRule
  · rcases List.mem_cons.mp hRule with rfl | hRule
    · simpa [Rule.applies, Match.holds] using hCt.1
    · rw [List.mem_singleton.mp hRule]
      simpa [Rule.applies, Match.holds] using hCt.2
  · cases hRule

end Output

-- ---------------------------------------------------------------------------
-- Police
-- ---------------------------------------------------------------------------

/-- A filter hands packets with this mark to the action. -/
def Meets (filters : List Filter) (direction : Direction) (family : Family) (mark : Nat)
    (action : Int) : Prop :=
  ∃ f ∈ filters, f.direction = direction ∧ f.protocol = family ∧ f.mark = mark ∧
    f.police = some action

/-- The action for what a class sends, at the rates of the rules. -/
def Class.upload (rules : Dict Int UserLimit) : Class → Option Int
  | .user limit => if limit.uploadMbps ≠ 0 then some (actionIndex limit.userId false) else none
  | .quarantine =>
    (quarantineOf rules.values).bind fun rates => rates.1.map fun _ => 0x5BFE0000
  | .atPort     => none
  | .free       => none

/-- The action for what a class is sent. What comes back from a port that was taken for
SoftEther's meets the action the quarantine has for the other direction. -/
def Class.download (rules : Dict Int UserLimit) : Class → Option Int
  | .user limit => if limit.downloadMbps ≠ 0 then some (actionIndex limit.userId true) else none
  | .quarantine =>
    (quarantineOf rules.values).bind fun rates => rates.2.map fun _ => 0x5BFE0001
  | .atPort     =>
    (quarantineOf rules.values).bind fun rates => rates.1.map fun _ => 0x5BFE0000
  | .free       => none

/-- What is sent meets the upload action of the class, the answers to it the download
action, and neither any other. -/
def Policed (rules : Dict Int UserLimit) (filters : List Filter) (p : Packet) (c : Class) : Prop :=
  ∀ action, (Meets filters .egress p.family p.mark action ↔ c.upload rules = some action) ∧
    (Meets filters .ingress p.family p.ctMark action ↔ c.download rules = some action)

section Police

variable {rules : Dict Int UserLimit} {filters : List Filter} {limit : UserLimit} {m : Marks}
  {direction : Direction} {family : Family} {mark : Nat} {action : Int}

theorem meets_append {fs gs : List Filter} :
    Meets (fs ++ gs) direction family mark action ↔
      Meets fs direction family mark action ∨ Meets gs direction family mark action := by
  simp only [Meets, List.mem_append, or_and_right, exists_or]

theorem meets_flatten {groups : List (List Filter)} :
    Meets groups.flatten direction family mark action ↔
      ∃ fs ∈ groups, Meets fs direction family mark action := by
  simp only [Meets, List.mem_flatten]
  constructor
  · rintro ⟨f, ⟨fs, hGroup, hMem⟩, hMeets⟩
    exact ⟨fs, hGroup, f, hMem, hMeets⟩
  · rintro ⟨fs, hGroup, f, hMem, hMeets⟩
    exact ⟨f, ⟨fs, hGroup, hMem⟩, hMeets⟩

theorem meets_userFilters :
    Meets (userFilters limit m) direction family mark action ↔
      (direction = .egress ∧ m.down = mark ∧ limit.downloadMbps ≠ 0 ∧
        actionIndex limit.userId true = action) ∨
      (direction = .egress ∧ m.up = mark ∧ limit.uploadMbps ≠ 0 ∧
        actionIndex limit.userId false = action) ∨
      (direction = .ingress ∧ m.base = mark ∧ limit.downloadMbps ≠ 0 ∧
        actionIndex limit.userId true = action) ∨
      (direction = .ingress ∧ m.outer = mark ∧ limit.uploadMbps ≠ 0 ∧
        actionIndex limit.userId false = action) := by
  unfold Meets userFilters families
  by_cases hDown : limit.downloadMbps = 0
  · by_cases hUp : limit.uploadMbps = 0
    · simp [hDown, hUp, ingressFlower, egressFw]
    · cases family <;> cases direction <;> simp [hDown, hUp, ingressFlower, egressFw]
  · by_cases hUp : limit.uploadMbps = 0
    · cases family <;> cases direction <;> simp [hDown, hUp, ingressFlower, egressFw]
    · cases family <;> cases direction <;> simp [hDown, hUp, ingressFlower, egressFw]

theorem meets_quarantineFilters {rates : Option (Option Int × Option Int)} :
    Meets (quarantineFilters rates) direction family mark action ↔
      ∃ up down, rates = some (up, down) ∧
        ((direction = .ingress ∧ quarantineMarks.outer = mark ∧ up.isSome ∧
            0x5BFE0000 = action) ∨
          (direction = .egress ∧ quarantineMarks.up = mark ∧ up.isSome ∧ 0x5BFE0000 = action) ∨
          (direction = .egress ∧ quarantineMarks.down = mark ∧ down.isSome ∧
            0x5BFE0001 = action) ∨
          (direction = .ingress ∧ quarantineMarks.base = mark ∧ down.isSome ∧
            0x5BFE0001 = action)) := by
  unfold Meets quarantineFilters families
  rcases rates with _ | ⟨_ | up, _ | down⟩
  · simp
  · simp
  · cases family <;> cases direction <;> simp [ingressFlower, egressFw]
  · cases family <;> cases direction <;> simp [ingressFlower, egressFw]
  · cases family <;> cases direction <;> simp [ingressFlower, egressFw]

theorem mem_userGroups {users : List UserLimit} {groups : List (List Filter)} {fs : List Filter}
    (h : users.mapM installUserFilters = .ok groups) (hMem : fs ∈ groups) :
    ∃ limit ∈ users, ∃ m, marksForUser limit.userId = .ok m ∧
      fs = userFilters limit limit.marks := by
  obtain ⟨limit, hLimit, hInstall⟩ := mem_of_mapM_right h hMem
  obtain ⟨m, hm, hEq⟩ := bind_ok_iff.mp hInstall
  rw [← Except.ok.inj hEq, ← marks_ok hm]
  exact ⟨limit, hLimit, m, hm, rfl⟩

/-- Without a limited user there is no quarantine. -/
theorem quarantineOf_eq_none (h : rules.values.any UserLimit.limited = false) :
    quarantineOf rules.values = none := by
  have hEmpty : softLimits rules.values = [] := by
    rw [softLimits, List.filter_eq_nil_iff]
    intro limit hMem
    have hLimited : limit.limited = false := by
      simpa using List.any_eq_false.mp h limit hMem
    rw [hLimited, Bool.false_and]
    exact Bool.false_ne_true
  rw [quarantineOf, hEmpty]
  rfl

/-- What the filters of all rules do with a mark. -/
theorem meets_iff (h : filtersOf rules = .ok filters) :
    Meets filters direction family mark action ↔
      (∃ limit ∈ filterUsers rules,
        Meets (userFilters limit limit.marks) direction family mark action) ∨
      Meets (quarantineFilters (quarantineOf rules.values)) direction family mark action := by
  unfold filtersOf at h
  split at h
  · obtain ⟨groups, hGroups, hEq⟩ := bind_ok_iff.mp h
    rw [← Except.ok.inj hEq, meets_append, meets_flatten]
    refine or_congr_left ?_
    constructor
    · rintro ⟨fs, hMem, hMeets⟩
      obtain ⟨limit, hLimit, -, -, rfl⟩ := mem_userGroups hGroups hMem
      exact ⟨limit, hLimit, hMeets⟩
    · rintro ⟨limit, hLimit, hMeets⟩
      obtain ⟨fs, hMem, hInstall⟩ := mem_of_mapM_left hGroups hLimit
      obtain ⟨m, hm, hEq⟩ := bind_ok_iff.mp hInstall
      rw [marks_ok hm, Except.ok.inj hEq] at hMeets
      exact ⟨fs, hMem, hMeets⟩
  · rename_i hInactive
    have hNone : rules.values.any UserLimit.limited = false := Bool.eq_false_iff.mpr hInactive
    rw [← Except.ok.inj h, filterUsers_eq_nil hNone, quarantineOf_eq_none hNone]
    simp [Meets, quarantineFilters]

/-- The users with filters have marks. -/
theorem marks_of_filtersOf (h : filtersOf rules = .ok filters) :
    ∀ limit ∈ filterUsers rules, ∃ m, marksForUser limit.userId = .ok m := by
  intro limit hMem
  unfold filtersOf at h
  split at h
  · obtain ⟨groups, hGroups, -⟩ := bind_ok_iff.mp h
    obtain ⟨fs, -, hInstall⟩ := mem_of_mapM_left hGroups hMem
    obtain ⟨m, hm, -⟩ := bind_ok_iff.mp hInstall
    exact ⟨m, hm⟩
  · rename_i hInactive
    rw [filterUsers_eq_nil (Bool.eq_false_iff.mpr hInactive)] at hMem
    cases hMem

/-- What is sent, by what filters do with its mark. -/
theorem meets_egress_iff (h : filtersOf rules = .ok filters) :
    Meets filters .egress family mark action ↔
      (∃ limit ∈ filterUsers rules,
        (limit.marks.down = mark ∧ limit.downloadMbps ≠ 0 ∧
          actionIndex limit.userId true = action) ∨
        (limit.marks.up = mark ∧ limit.uploadMbps ≠ 0 ∧
          actionIndex limit.userId false = action)) ∨
      ∃ up down, quarantineOf rules.values = some (up, down) ∧
        ((quarantineMarks.up = mark ∧ up.isSome ∧ 0x5BFE0000 = action) ∨
          (quarantineMarks.down = mark ∧ down.isSome ∧ 0x5BFE0001 = action)) := by
  rw [meets_iff h]
  simp only [meets_userFilters, meets_quarantineFilters, reduceCtorEq, false_and, true_and,
    false_or, or_false]

/-- What arrives, by what filters do with the mark of its connection. -/
theorem meets_ingress_iff (h : filtersOf rules = .ok filters) :
    Meets filters .ingress family mark action ↔
      (∃ limit ∈ filterUsers rules,
        (limit.marks.base = mark ∧ limit.downloadMbps ≠ 0 ∧
          actionIndex limit.userId true = action) ∨
        (limit.marks.outer = mark ∧ limit.uploadMbps ≠ 0 ∧
          actionIndex limit.userId false = action)) ∨
      ∃ up down, quarantineOf rules.values = some (up, down) ∧
        ((quarantineMarks.outer = mark ∧ up.isSome ∧ 0x5BFE0000 = action) ∨
          (quarantineMarks.base = mark ∧ down.isSome ∧ 0x5BFE0001 = action)) := by
  rw [meets_iff h]
  simp only [meets_userFilters, meets_quarantineFilters, reduceCtorEq, false_and, true_and,
    false_or]

/-- Limits whose ids have filters of their own, and a filter set made of them. -/
structure Sound (rules : Dict Int UserLimit) (filters : List Filter) : Prop where
  made  : filtersOf rules = .ok filters
  range : ∀ a ∈ filterUsers rules, a.userId ≤ 11133
  ids   : (filterUsers rules).Pairwise fun a b => a.userId ≠ b.userId

namespace Sound

variable (h : Sound rules filters) {p : Packet}
include h

theorem same {a b : UserLimit} (ha : a ∈ filterUsers rules) (hb : b ∈ filterUsers rules)
    (hEq : a.userId = b.userId) : a = b := by
  by_contra hNe
  have : Std.Symm fun a b : UserLimit => a.userId ≠ b.userId := ⟨fun _ _ h => h.symm⟩
  exact h.ids.forall ha hb hNe hEq

/-- The numbers of the marks that filters look for. -/
theorem numbers (hMem : limit ∈ filterUsers rules) :
    ∃ n : Nat, limit.userId = n ∧ n ≤ 11133 ∧
      limit.marks = ⟨markPrefix + 256 * n, markPrefix + 256 * n + 64, markPrefix + 256 * n + 1,
        markPrefix + 256 * n + 2⟩ := by
  obtain ⟨m, hm⟩ := marks_of_filtersOf h.made limit hMem
  have hPos := (marksForUser_ok hm).1
  have hLe := h.range limit hMem
  exact ⟨limit.userId.toNat, by omega, by omega, marks_eq hm⟩

/-- Another user's marks are no marks of this one. -/
theorem apart {other : UserLimit} (hMem : limit ∈ filterUsers rules)
    (hOther : other ∈ filterUsers rules) :
    other.marks.down ≠ limit.marks.up ∧ other.marks.outer ≠ limit.marks.base ∧
      (other.marks.up = limit.marks.up → other = limit) ∧
        (other.marks.base = limit.marks.base → other = limit) := by
  obtain ⟨n, hn, -, hOwn⟩ := h.numbers hMem
  obtain ⟨k, hk, -, hTheirs⟩ := h.numbers hOther
  rw [hOwn, hTheirs]
  dsimp only
  refine ⟨by omega, by omega, fun hEq => ?_, fun hEq => ?_⟩
  · exact h.same hOther hMem (by omega)
  · exact h.same hOther hMem (by omega)

/-- Nor are those of the quarantine. -/
theorem guarded (hMem : limit ∈ filterUsers rules) :
    (quarantineMarks.up ≠ limit.marks.up ∧ quarantineMarks.down ≠ limit.marks.up ∧
      quarantineMarks.up ≠ limit.marks.down) ∧ quarantineMarks.outer ≠ limit.marks.base ∧
        quarantineMarks.base ≠ limit.marks.base ∧ quarantineMarks.base ≠ limit.marks.outer := by
  obtain ⟨n, -, hLe, hOwn⟩ := h.numbers hMem
  rw [hOwn]
  simp only [quarantineMarks, markPrefix]
  omega

theorem policed_user (hMem : limit ∈ filterUsers rules) :
    Policed rules filters (p.tagged (.user limit)) (.user limit) := by
  obtain ⟨⟨hUp, hDown, -⟩, hOuter, hBase, -⟩ := h.guarded hMem
  intro action
  rw [meets_egress_iff h.made, meets_ingress_iff h.made, Class.upload, Class.download]
  constructor
  · constructor
    -- the mark decides which filter is met, and no other user or quarantine has it
    · rintro (⟨l, hl, ⟨hMark, -⟩ | ⟨hMark, hRate, hAction⟩⟩ | ⟨_, _, -, ⟨hMark, -⟩ | ⟨hMark, -⟩⟩)
      · exact absurd hMark (h.apart hMem hl).1
      · obtain rfl := (h.apart hMem hl).2.2.1 hMark
        rw [if_pos hRate, hAction]
      · exact absurd hMark hUp
      · exact absurd hMark hDown
    · intro hAction
      split at hAction
      · rename_i hRate
        exact Or.inl ⟨limit, hMem, Or.inr ⟨rfl, hRate, Option.some.inj hAction⟩⟩
      · cases hAction
  · constructor
    · rintro (⟨l, hl, ⟨hMark, hRate, hAction⟩ | ⟨hMark, -⟩⟩ | ⟨_, _, -, ⟨hMark, -⟩ | ⟨hMark, -⟩⟩)
      · obtain rfl := (h.apart hMem hl).2.2.2 hMark
        rw [if_pos hRate, hAction]
      · exact absurd hMark (h.apart hMem hl).2.1
      · exact absurd hMark hOuter
      · exact absurd hMark hBase
    · intro hAction
      split at hAction
      · rename_i hRate
        exact Or.inl ⟨limit, hMem, Or.inl ⟨rfl, hRate, Option.some.inj hAction⟩⟩
      · cases hAction

theorem policed_quarantine : Policed rules filters (p.tagged .quarantine) .quarantine := by
  intro action
  rw [meets_egress_iff h.made, meets_ingress_iff h.made, Class.upload, Class.download,
    Option.bind_eq_some_iff, Option.bind_eq_some_iff]
  constructor
  · constructor
    -- the users' numbers end below the quarantine's
    · rintro (⟨l, hl, ⟨hMark, -⟩ | ⟨hMark, -⟩⟩ |
        ⟨up, down, hRates, ⟨-, hUp, hAction⟩ | ⟨hMark, -⟩⟩)
      · exact absurd hMark.symm (h.guarded hl).1.2.2
      · exact absurd hMark.symm (h.guarded hl).1.1
      · obtain ⟨rate, rfl⟩ := Option.isSome_iff_exists.mp hUp
        exact ⟨(some rate, down), hRates, congrArg some hAction⟩
      · exact absurd hMark (by decide : quarantineMarks.down ≠ quarantineMarks.up)
    · rintro ⟨⟨up, down⟩, hRates, hAction⟩
      obtain ⟨rate, hUp, hAction⟩ := Option.map_eq_some_iff.mp hAction
      exact Or.inr ⟨up, down, hRates,
        Or.inl ⟨rfl, Option.isSome_iff_exists.mpr ⟨rate, hUp⟩, hAction⟩⟩
  · constructor
    · rintro (⟨l, hl, ⟨hMark, -⟩ | ⟨hMark, -⟩⟩ |
        ⟨up, down, hRates, ⟨hMark, -⟩ | ⟨-, hDown, hAction⟩⟩)
      · exact absurd hMark.symm (h.guarded hl).2.2.1
      · exact absurd hMark.symm (h.guarded hl).2.2.2
      · exact absurd hMark (by decide : quarantineMarks.outer ≠ quarantineMarks.base)
      · obtain ⟨rate, rfl⟩ := Option.isSome_iff_exists.mp hDown
        exact ⟨(up, some rate), hRates, congrArg some hAction⟩
    · rintro ⟨⟨up, down⟩, hRates, hAction⟩
      obtain ⟨rate, hDown, hAction⟩ := Option.map_eq_some_iff.mp hAction
      exact Or.inr ⟨up, down, hRates,
        Or.inr ⟨rfl, Option.isSome_iff_exists.mpr ⟨rate, hDown⟩, hAction⟩⟩

theorem policed_free (hCt : p.ctMark = 0) (hMark : p.mark % 256 = 0) :
    Policed rules filters p .free := by
  -- a packet's marks end in a byte that is not nought, and those of connections are not nought
  have hOther : ∀ l ∈ filterUsers rules, l.marks.down ≠ p.mark ∧ l.marks.up ≠ p.mark ∧
      l.marks.base ≠ p.ctMark ∧ l.marks.outer ≠ p.ctMark := by
    intro l hMem
    obtain ⟨k, -, -, hTheirs⟩ := h.numbers hMem
    rw [hTheirs, hCt]
    simp only [markPrefix]
    omega
  have hGuard : quarantineMarks.up ≠ p.mark ∧ quarantineMarks.down ≠ p.mark ∧
      quarantineMarks.outer ≠ p.ctMark ∧ quarantineMarks.base ≠ p.ctMark := by
    rw [hCt]
    simp only [quarantineMarks]
    omega
  intro action
  rw [meets_egress_iff h.made, meets_ingress_iff h.made]
  constructor
  · refine iff_of_false ?_ (fun h => by cases h)
    rintro (⟨l, hl, ⟨hEq, -⟩ | ⟨hEq, -⟩⟩ | ⟨_, _, -, ⟨hEq, -⟩ | ⟨hEq, -⟩⟩)
    · exact (hOther l hl).1 hEq
    · exact (hOther l hl).2.1 hEq
    · exact hGuard.1 hEq
    · exact hGuard.2.1 hEq
  · refine iff_of_false ?_ (fun h => by cases h)
    rintro (⟨l, hl, ⟨hEq, -⟩ | ⟨hEq, -⟩⟩ | ⟨_, _, -, ⟨hEq, -⟩ | ⟨hEq, -⟩⟩)
    · exact (hOther l hl).2.2.1 hEq
    · exact (hOther l hl).2.2.2 hEq
    · exact hGuard.2.2.1 hEq
    · exact hGuard.2.2.2 hEq

/-- Nobody's connection to one of SoftEther's ports: what it sends is not policed, and its
answers meet the upload action of the quarantine. -/
theorem policed_atPort (hMark : p.mark % 256 = 0) :
    Policed rules filters (p.tagged .atPort) .atPort := by
  -- the connection has the quarantine's mark, which is no user's
  have hOther : ∀ l ∈ filterUsers rules, l.marks.down ≠ p.mark ∧ l.marks.up ≠ p.mark ∧
      l.marks.base ≠ quarantineMarks.outer ∧ l.marks.outer ≠ quarantineMarks.outer := by
    intro l hMem
    obtain ⟨k, -, hLe, hTheirs⟩ := h.numbers hMem
    rw [hTheirs]
    simp only [markPrefix, quarantineMarks]
    omega
  have hGuard : quarantineMarks.up ≠ p.mark ∧ quarantineMarks.down ≠ p.mark := by
    simp only [quarantineMarks]
    omega
  intro action
  rw [meets_egress_iff h.made, meets_ingress_iff h.made, Class.upload, Class.download,
    Option.bind_eq_some_iff]
  constructor
  · refine iff_of_false ?_ (fun h => by cases h)
    rintro (⟨l, hl, ⟨hEq, -⟩ | ⟨hEq, -⟩⟩ | ⟨_, _, -, ⟨hEq, -⟩ | ⟨hEq, -⟩⟩)
    · exact (hOther l hl).1 hEq
    · exact (hOther l hl).2.1 hEq
    · exact hGuard.1 hEq
    · exact hGuard.2 hEq
  · constructor
    · rintro (⟨l, hl, ⟨hEq, -⟩ | ⟨hEq, -⟩⟩ |
        ⟨up, down, hRates, ⟨-, hUp, hAction⟩ | ⟨hEq, -⟩⟩)
      · exact absurd hEq (hOther l hl).2.2.1
      · exact absurd hEq (hOther l hl).2.2.2
      · obtain ⟨rate, rfl⟩ := Option.isSome_iff_exists.mp hUp
        exact ⟨(some rate, down), hRates, congrArg some hAction⟩
      · exact absurd hEq (by decide : quarantineMarks.base ≠ quarantineMarks.outer)
    · rintro ⟨⟨up, down⟩, hRates, hAction⟩
      obtain ⟨rate, hUp, hAction⟩ := Option.map_eq_some_iff.mp hAction
      exact Or.inr ⟨up, down, hRates,
        Or.inl ⟨rfl, Option.isSome_iff_exists.mpr ⟨rate, hUp⟩, hAction⟩⟩

/-- A marked packet meets the actions of its class. -/
theorem policed_tagged {c : Class} (hUser : ∀ limit, c = .user limit → limit ∈ filterUsers rules)
    (hCt : p.ctMark = 0) (hMark : p.mark % 256 = 0) :
    Policed rules filters (p.tagged c) c := by
  cases c with
  | user limit => exact h.policed_user (hUser limit rfl)
  | quarantine => exact h.policed_quarantine
  | atPort     => exact h.policed_atPort hMark
  | free       => exact h.policed_free hCt hMark

end Sound

theorem forwardClass_user {soft : SoftEther} {p : Packet}
    (h : forwardClass soft rules p = .user limit) : limit ∈ filterUsers rules := by
  unfold forwardClass at h
  cases hFound : (activeUsers rules).find? fun limit => limit.innerSources.contains p.saddr with
  | some found =>
    rw [hFound] at h
    obtain rfl := Class.user.inj h
    exact filtered_of_active (List.mem_of_find?_eq_some hFound)
  | none =>
    rw [hFound, Option.elim_none] at h
    split at h
    · split at h
      · cases h
      · split at h <;> cases h
    · cases h

theorem outputClass_user {p : Packet} (h : outputClass rules p = .user limit) :
    limit ∈ filterUsers rules := by
  unfold outputClass at h
  cases hSocket : (activeUsers rules).reverse.find? fun limit => limit.sshUids.any fun uid =>
      decide (p.skuid = some uid) with
  | some found =>
    rw [hSocket] at h
    obtain rfl := Class.user.inj h
    exact filtered_of_active (List.mem_reverse.mp (List.mem_of_find?_eq_some hSocket))
  | none =>
    rw [hSocket] at h
    cases hBase : (activeUsers rules).find? fun limit => decide (p.mark = limit.marks.base) with
    | some found =>
      rw [hBase] at h
      obtain rfl := Class.user.inj h
      exact filtered_of_active (List.mem_of_find?_eq_some hBase)
    | none =>
      rw [hBase] at h
      cases h

/-- The rule set of a payload is sound as long as it has no ids behind 11133. -/
theorem sound_of_desired {pf : Platform} {k : Kernel} {entries : Limits}
    (hRules : desired pf k entries = .ok rules) (hMade : filtersOf rules = .ok filters)
    (hRange : ∀ a ∈ filterUsers rules, a.userId ≤ 11133) : Sound rules filters :=
  { made := hMade, range := hRange, ids := filterUsers_pairwise hRules }

/-- **New connections are policed as their class.** One action for what they send and one
for the answers, the same for both address families: those of the user they belong to, those
of the quarantine, or none, and for what is passed on to one of SoftEther's ports the
quarantine's upload action on the answers. A packet that is passed on has gone through the
prerouting chain before. -/
theorem connections_policed {pf : Platform} {k : Kernel} {entries : Limits}
    (hRules : desired pf k entries = .ok rules) (hMade : filtersOf rules = .ok filters)
    (hRange : ∀ a ∈ filterUsers rules, a.userId ≤ 11133)
    {tap : Option String} {script : Script}
    (hScript : nftScript (SoftEther.ofNode tap) rules = .ok script) {p : Packet}
    (hCt : p.ctMark = 0) (hMark : p.mark % 256 = 0) :
    Policed rules filters (runChain script.forward (runChain script.prerouting p))
        (forwardClass (SoftEther.ofNode tap) rules p) ∧
      Policed rules filters (runChain script.output p) (outputClass rules p) := by
  have h := sound_of_desired hRules hMade hRange
  rw [run_forward hScript, run_output h.range hCt hScript]
  exact ⟨h.policed_tagged (fun _ => forwardClass_user) hCt hMark,
    h.policed_tagged (fun _ => outputClass_user) hCt hMark⟩

/-- A rule set with marks has a table. -/
theorem nftScript_ok {tap : Option String}
    (hMarks : ∀ limit ∈ filterUsers rules, ∃ m, marksForUser limit.userId = .ok m) :
    ∃ script, nftScript (SoftEther.ofNode tap) rules = .ok script := by
  have hOutput : ∃ output, (activeUsers rules).mapM outputRules = .ok output := by
    refine exists_mapM_ok_iff.mpr fun limit hMem => ?_
    obtain ⟨m, hm⟩ := hMarks limit (filtered_of_active hMem)
    rw [outputRules, hm]
    exact ⟨_, rfl⟩
  have hForward : ∃ forward, (activeUsers rules).mapM forwardRules = .ok forward := by
    refine exists_mapM_ok_iff.mpr fun limit hMem => ?_
    obtain ⟨m, hm⟩ := hMarks limit (filtered_of_active hMem)
    rw [forwardRules, hm]
    exact ⟨_, rfl⟩
  obtain ⟨output, hOutput⟩ := hOutput
  obtain ⟨forward, hForward⟩ := hForward
  have hNone : (SoftEther.ofNode tap).endpoints.mergeSort Endpoint.before = [] := List.mergeSort_nil
  rw [nftScript, markedUsers_ofNode, hOutput, hForward, hNone]
  exact ⟨_, rfl⟩

end Police

/-- A host where WireGuard knows the address of account `a`. -/
def homeKernel : Kernel where
  identities core :=
    if core = "wireguard" then Dict.ofPairs [("a", ⟨["10.0.0.2"], []⟩)] else Dict.empty
  address    := some
  construct  := .ok ()
  install r  := .ok r.entries.length

/-- User 7 with an upload rate and accounts of WireGuard and SoftEther. -/
def homeLimits : Payload :=
  Dict.ofPairs [("7", .dict [("upload_mbps", .num 5),
    ("accounts", .dict [("wireguard", .list [.str "a"]), ("softether", .list [.str "s"])])])]

def homeLimit : UserLimit :=
  { userId := 7, username := "7", uploadMbps := 5, downloadMbps := 0
    innerSources := ["10.0.0.2"], sshUids := [], softetherAccounts := ["s"] }

def homeRules : Dict Int UserLimit := Dict.ofPairs [(7, homeLimit)]

/-- A packet from the address, sent to port 443. -/
def homePacket : Packet :=
  { family := .ip, mark := 0, ctMark := 0, skuid := none, iifname := "wg0", saddr := "10.0.0.2"
    transport := "tcp", sport := 50000, dport := 443 }

theorem desired_home : desired plainPlatform homeKernel homeLimits.entries = .ok homeRules := rfl

theorem filterUsers_home : ∀ a ∈ filterUsers homeRules, a = homeLimit := by
  intro a hMem
  exact List.mem_singleton.mp (mem_filterUsers.mp hMem).1

theorem marks_home : ∀ a ∈ filterUsers homeRules, ∃ m, marksForUser a.userId = .ok m := by
  intro a hMem
  rw [filterUsers_home a hMem]
  exact ⟨_, rfl⟩

theorem range_home : ∀ a ∈ filterUsers homeRules, a.userId ≤ 11133 := by
  intro a hMem
  rw [filterUsers_home a hMem]
  decide

/-- The same from an address that is nobody's. -/
def strangerPacket : Packet := { homePacket with saddr := "10.0.0.9" }

/-- What user 7 sends from the address meets the user's upload action, also to port 443; what
a stranger sends there is taken for SoftEther. -/
theorem home_policed :
    ∃ filters script, filtersOf homeRules = .ok filters ∧
      nftScript (SoftEther.ofNode (some "soft0")) homeRules = .ok script ∧
      forwardClass (SoftEther.ofNode (some "soft0")) homeRules homePacket = .user homeLimit ∧
      Policed homeRules filters (runChain script.forward (runChain script.prerouting homePacket))
        (.user homeLimit) ∧
      forwardClass (SoftEther.ofNode (some "soft0")) homeRules strangerPacket = .atPort ∧
      Policed homeRules filters
        (runChain script.forward (runChain script.prerouting strangerPacket)) .atPort := by
  obtain ⟨filters, hMade⟩ := filtersOf_ok marks_home
  obtain ⟨script, hScript⟩ := nftScript_ok marks_home
  have hActive : activeUsers homeRules = [homeLimit] := List.mergeSort_singleton homeLimit
  have hClass : forwardClass (SoftEther.ofNode (some "soft0")) homeRules homePacket =
      .user homeLimit := by
    rw [forwardClass, hActive]
    rfl
  -- port 443 is one of SoftEther's, and the address is no user's
  have hStranger : forwardClass (SoftEther.ofNode (some "soft0")) homeRules strangerPacket =
      .atPort := by
    rw [forwardClass, hActive]
    rfl
  have hPoliced := (connections_policed (p := homePacket) desired_home hMade range_home
    hScript rfl rfl).1
  have hTaken := (connections_policed (p := strangerPacket) desired_home hMade range_home
    hScript rfl rfl).1
  rw [hClass] at hPoliced
  rw [hStranger] at hTaken
  exact ⟨filters, script, hMade, hScript, hClass, hPoliced, hStranger, hTaken⟩

-- ---------------------------------------------------------------------------
-- SoftEther
-- ---------------------------------------------------------------------------

section SoftEther

variable {rules : Dict Int UserLimit} {filters : List Filter} {tap : Option String}
  {script : Script} {p : Packet}

/-- What becomes of an answer on a connection of the quarantine. -/
theorem run_answer (h : Sound rules filters)
    (hScript : nftScript (SoftEther.ofNode tap) rules = .ok script)
    (hGuard : softGuard rules = true) (hCt : p.ctMark = quarantineMarks.outer)
    (hMark : p.mark = 0) (hNobody : ∀ limit ∈ activeUsers rules, limit.ownsSocket p = false) :
    runChain script.output p = { p with mark := quarantineMarks.down } := by
  unfold nftScript at hScript
  simp only [bind_ok_iff, markedUsers_ofNode] at hScript
  obtain ⟨output, hOutput, forward, -, prerouting, -, hEq⟩ := hScript
  rw [← Except.ok.inj hEq, hGuard]
  -- the connection's mark is the quarantine's, so no user's first rule applies
  have hOuter : ∀ limit ∈ activeUsers rules, p.ctMark ≠ limit.marks.outer := by
    intro limit hMem
    obtain ⟨n, -, hLe, hOwn⟩ := h.numbers (filtered_of_active hMem)
    rw [hCt, hOwn]
    simp only [quarantineMarks, markPrefix]
    omega
  -- without a mark and without an own socket no other rule applies either
  have hUnclaimed : ∀ limit ∈ activeUsers rules, p.claimed limit = p := by
    intro limit hMem
    obtain ⟨n, -, -, hOwn⟩ := h.numbers (filtered_of_active hMem)
    have hNe : p.mark ≠ limit.marks.base := by
      rw [hMark, hOwn]
      simp only [markPrefix]
      omega
    rw [Packet.claimed, hNobody limit hMem, decide_eq_false hNe]
    rfl
  have hFold : (activeUsers rules).foldl Packet.claimed p = p := by
    refine List.foldlRecOn (motive := fun q => q = p) (activeUsers rules) Packet.claimed rfl ?_
    intro q hSame limit hMem
    rw [hSame, hUnclaimed limit hMem]
  rw [run_outputRules (fun _ hMem => (mem_activeUsers.mp hMem).2) hOuter hOutput, hFold]
  simp [runChain, Rule.applies, Match.holds, Rule.sets, hCt, quarantineMarks]

/-- **SoftEther stays in the quarantine.** What is sent to one of its ports meets the upload
action of the quarantine and the answers its download action, whosever session it is: the
limiter of a node has never seen an endpoint. -/
theorem softether_quarantined {pf : Platform} {k : Kernel} {entries : Limits}
    (hRules : desired pf k entries = .ok rules) (hMade : filtersOf rules = .ok filters)
    (hRange : ∀ a ∈ filterUsers rules, a.userId ≤ 11133)
    (hScript : nftScript (SoftEther.ofNode tap) rules = .ok script)
    (hGuard : softGuard rules = true)
    (hPort : (p.transport, p.dport) ∈ softPorts) {q : Packet}
    (hConn : q.ctMark = (runChain script.prerouting p).ctMark) (hMark : q.mark = 0)
    (hNobody : ∀ limit ∈ activeUsers rules, limit.ownsSocket q = false) (action : Int) :
    (Meets filters .ingress p.family (runChain script.prerouting p).ctMark action ↔
        Class.quarantine.upload rules = some action) ∧
      (Meets filters .egress q.family (runChain script.output q).mark action ↔
        Class.quarantine.download rules = some action) := by
  have h := sound_of_desired hRules hMade hRange
  -- the prerouting chain has marked the connection
  have hMarked : (runChain script.prerouting p).ctMark = quarantineMarks.outer := by
    rw [run_prerouting hScript, hGuard, List.contains_iff_mem.mpr hPort]
    rfl
  rw [hMarked] at hConn
  rw [hMarked, run_answer h hScript hGuard hConn hMark hNobody, meets_egress_iff h.made,
    meets_ingress_iff h.made, Class.upload, Class.download, Option.bind_eq_some_iff,
    Option.bind_eq_some_iff]
  constructor
  · constructor
    -- what is sent: the users' filters ask for their own marks
    · rintro (⟨l, hl, ⟨hEq, -⟩ | ⟨hEq, -⟩⟩ |
        ⟨up, down, hRates, ⟨-, hUp, hAction⟩ | ⟨hEq, -⟩⟩)
      · obtain ⟨n, -, hLe, hOwn⟩ := h.numbers hl
        rw [hOwn] at hEq
        simp only [quarantineMarks, markPrefix] at hEq
        omega
      · obtain ⟨n, -, hLe, hOwn⟩ := h.numbers hl
        rw [hOwn] at hEq
        simp only [quarantineMarks, markPrefix] at hEq
        omega
      · obtain ⟨rate, rfl⟩ := Option.isSome_iff_exists.mp hUp
        exact ⟨(some rate, down), hRates, congrArg some hAction⟩
      · exact absurd hEq (by decide : quarantineMarks.base ≠ quarantineMarks.outer)
    · rintro ⟨⟨up, down⟩, hRates, hAction⟩
      obtain ⟨rate, hUp, hAction⟩ := Option.map_eq_some_iff.mp hAction
      exact Or.inr ⟨up, down, hRates,
        Or.inl ⟨rfl, Option.isSome_iff_exists.mpr ⟨rate, hUp⟩, hAction⟩⟩
  · constructor
    · rintro (⟨l, hl, ⟨hEq, -⟩ | ⟨hEq, -⟩⟩ |
        ⟨up, down, hRates, ⟨hEq, -⟩ | ⟨-, hDown, hAction⟩⟩)
      · obtain ⟨n, -, hLe, hOwn⟩ := h.numbers hl
        rw [hOwn] at hEq
        simp only [quarantineMarks, markPrefix] at hEq
        omega
      · obtain ⟨n, -, hLe, hOwn⟩ := h.numbers hl
        rw [hOwn] at hEq
        simp only [quarantineMarks, markPrefix] at hEq
        omega
      · exact absurd hEq (by decide : quarantineMarks.up ≠ quarantineMarks.down)
      · obtain ⟨rate, rfl⟩ := Option.isSome_iff_exists.mp hDown
        exact ⟨(up, some rate), hRates, congrArg some hAction⟩
    · rintro ⟨⟨up, down⟩, hRates, hAction⟩
      obtain ⟨rate, hDown, hAction⟩ := Option.map_eq_some_iff.mp hAction
      exact Or.inr ⟨up, down, hRates,
        Or.inr ⟨rfl, Option.isSome_iff_exists.mpr ⟨rate, hDown⟩, hAction⟩⟩

end SoftEther

/-- What arrives on port 443 meets the upload action of the quarantine. -/
theorem home_quarantined :
    ∃ filters script, filtersOf homeRules = .ok filters ∧
      nftScript (SoftEther.ofNode none) homeRules = .ok script ∧
      Meets filters .ingress .ip (runChain script.prerouting homePacket).ctMark 0x5BFE0000 ∧
      Class.quarantine.upload homeRules = some 0x5BFE0000 := by
  obtain ⟨filters, hMade⟩ := filtersOf_ok marks_home
  obtain ⟨script, hScript⟩ := nftScript_ok marks_home
  have hPort : (homePacket.transport, homePacket.dport) ∈ softPorts := List.mem_cons_self
  have hUpload : Class.quarantine.upload homeRules = some 0x5BFE0000 := rfl
  have hMeets := (softether_quarantined desired_home hMade range_home hScript rfl hPort
    (q := { homePacket with ctMark := (runChain script.prerouting homePacket).ctMark })
    rfl rfl (fun limit hMem => by
      rw [filterUsers_home limit (filtered_of_active hMem)]
      rfl) 0x5BFE0000).1
  exact ⟨filters, script, hMade, hScript, hMeets.mpr hUpload, hUpload⟩

end ZagrosNode.Bandwidth
