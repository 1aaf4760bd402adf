import ZagrosNode.Lib.Decimal
import ZagrosNode.Accounts.Convergence
import ZagrosNode.WireGuard.Provisioned

/-!
# ZagrosNode — the interface file

`render_interface` puts the key and the address of the server, the port, the
firewall hooks and one block for each peer into lines. An account's id goes
into a comment and its preshared key and address into values, and none of the
three is checked for line breaks on the way.

The file is read with the reader of `Lib/Ini.lean`, which breaks lines where
`str.splitlines` does, as the node's own `strip_config` reads such a file. So a text in
the file ends at any of the line breaks Python knows, and an account's id, which goes
into a comment line, may end the comment.

`Clean` is about a peer: its three texts, put where they go, are read as what they are.
`Harmless` is the same about the pushed account: the keys are checked or generated and
the addresses are chosen, so what is left is the id and the preshared key, if the
account brings one. `clean_iff_harmless` goes from the one to the other.

The proof of the file follows its lines. Each is either a line of a section (kept, with
its key and value) or lost in a comment, and the sections come out in their order.

Main results:

* `read_renderInterface_iff` — an interface file reads back as one interface
  and its peers exactly if every peer is clean.
* `reads_back_iff` — after an accepted push it does exactly if every account
  with a peer on the interface is harmless.
-/

namespace ZagrosNode.WireGuard

open ZagrosNode.Lib ZagrosNode.Cores ZagrosNode.Accounts

-- ---------------------------------------------------------------------------
-- Rendering
-- ---------------------------------------------------------------------------

/-- The server's side of an interface: its key file and the texts of the
address library for its subnet. -/
structure Server where
  privateKey      : List Char
  address         : List Char
  /-- `ip_interface(address).network` -/
  source          : List Char
  privateKey_kept : Ini.Kept privateKey
  address_kept    : Ini.Kept address
  source_oneLine  : OneLine source

abbrev Field : Type := List Char × List Char

/-- The start of the two hooks about address translation. -/
def findUplink : List Char :=
  "IF=$(ip route show default 2>/dev/null | awk '/^default/ \x7bprint $5; exit\x7d'); ".toList ++
    "if [ -n \"$IF\" ]; then iptables -t nat ".toList

/-- `_FORWARD_NAT_HOOKS`, filled in -/
def forwardNatHooks (source : List Char) : List Field :=
  [("PostUp".toList,
      "iptables -C FORWARD -i %i -j ACCEPT 2>/dev/null || ".toList ++
        "iptables -A FORWARD -i %i -j ACCEPT".toList),
    ("PostUp".toList,
      "iptables -C FORWARD -o %i -j ACCEPT 2>/dev/null || ".toList ++
        "iptables -A FORWARD -o %i -j ACCEPT".toList),
    ("PostUp".toList,
      findUplink ++
        ("-C POSTROUTING -s ".toList ++ source ++
          " -o \"$IF\" -j MASQUERADE 2>/dev/null || iptables -t nat -A POSTROUTING -s ".toList ++
          source) ++
        " -o \"$IF\" -j MASQUERADE; fi".toList),
    ("PostDown".toList, "iptables -D FORWARD -i %i -j ACCEPT 2>/dev/null || true".toList),
    ("PostDown".toList, "iptables -D FORWARD -o %i -j ACCEPT 2>/dev/null || true".toList),
    ("PostDown".toList,
      findUplink ++ ("-D POSTROUTING -s ".toList ++ source) ++
        " -o \"$IF\" -j MASQUERADE 2>/dev/null || true; fi".toList)]

/-- The keys of the interface and their values. -/
def interfaceFields (server : Server) (l : Listener) : List Field :=
  [("PrivateKey".toList, server.privateKey), ("Address".toList, server.address),
    ("ListenPort".toList, natChars l.port), ("Table".toList, "off".toList)] ++
    if l.enableNat then forwardNatHooks server.source else []

/-- The lines of a peer. -/
def peerLines (peer : DesiredPeer) : List (List Char) :=
  [[], '#' :: ' ' :: peer.comment.toList, "[Peer]".toList,
    Ini.fieldLine "PublicKey".toList peer.publicKey.toList] ++
    peer.presharedKey.toList.map (fun key => Ini.fieldLine "PresharedKey".toList key.toList) ++
    [Ini.fieldLine "AllowedIPs".toList (Ini.joinList (peer.allowedIps.map String.toList))]

/-- `render_interface` -/
def renderInterface (server : Server) (l : Listener) (peers : List DesiredPeer) : List Char :=
  Ini.joinLines ("[Interface]".toList ::
    (interfaceFields server l).map (fun f => Ini.fieldLine f.1 f.2) ++ peers.flatMap peerLines)

-- ---------------------------------------------------------------------------
-- What the file means
-- ---------------------------------------------------------------------------

/-- The one key with a list of values. -/
def lists : Ini.ListKeys := fun key => decide (key = "AllowedIPs".toList)

/-- The section of the interface: the rendered keys and hooks. -/
def interfaceSection (server : Server) (l : Listener) : Ini.Section where
  name := "Interface".toList
  entries := (interfaceFields server l).map fun f => .field f.1 [f.2]

/-- The section of a peer: its key, preshared key and addresses. -/
def peerSection (peer : DesiredPeer) : Ini.Section where
  name := "Peer".toList
  entries :=
    .field "PublicKey".toList [peer.publicKey.toList] ::
      peer.presharedKey.toList.map (fun key => .field "PresharedKey".toList [key.toList]) ++
      [.field "AllowedIPs".toList (peer.allowedIps.map String.toList)]

/-- What is read back if nothing was injected. -/
def asRendered (server : Server) (l : Listener) (peers : List DesiredPeer) :
    List Ini.Entry × List Ini.Section :=
  ([], interfaceSection server l :: peers.map peerSection)

-- ---------------------------------------------------------------------------
-- Lines as they are meant
-- ---------------------------------------------------------------------------

def interfaceMeant (server : Server) (l : Listener) : List Ini.Meant :=
  ("[Interface]".toList, [.header "Interface".toList]) ::
    (interfaceFields server l).map fun f => (Ini.fieldLine f.1 f.2, [.entry (.field f.1 [f.2])])

def peerMeant (peer : DesiredPeer) : List Ini.Meant :=
  [([], []), ('#' :: ' ' :: peer.comment.toList, []),
    ("[Peer]".toList, [.header "Peer".toList]),
    (Ini.fieldLine "PublicKey".toList peer.publicKey.toList,
      [.entry (.field "PublicKey".toList [peer.publicKey.toList])])] ++
    peer.presharedKey.toList.map (fun key =>
      (Ini.fieldLine "PresharedKey".toList key.toList,
        [.entry (.field "PresharedKey".toList [key.toList])])) ++
    [(Ini.fieldLine "AllowedIPs".toList (Ini.joinList (peer.allowedIps.map String.toList)),
      [.entry (.field "AllowedIPs".toList (peer.allowedIps.map String.toList))])]

def meant (server : Server) (l : Listener) (peers : List DesiredPeer) : List Ini.Meant :=
  interfaceMeant server l ++ peers.flatMap peerMeant

theorem meant_lines (server : Server) (l : Listener) (peers : List DesiredPeer) :
    renderInterface server l peers = Ini.joinLines ((meant server l peers).map Prod.fst) := by
  have hPeer : ∀ peer, (peerMeant peer).map Prod.fst = peerLines peer := by
    intro peer
    simp only [peerMeant, peerLines, List.map_append, List.map_cons, List.map_map, List.map_nil]
    rfl
  have hFields : (interfaceMeant server l).map Prod.fst = "[Interface]".toList ::
      (interfaceFields server l).map fun f => Ini.fieldLine f.1 f.2 := by
    rw [interfaceMeant, List.map_cons, List.map_map]
    rfl
  rw [renderInterface, meant, List.map_append, hFields, List.map_flatMap,
    List.flatMap_congr fun peer _ => hPeer peer]

theorem meant_items (server : Server) (l : Listener) (peers : List DesiredPeer) :
    (meant server l peers).flatMap Prod.snd = Ini.unread (asRendered server l peers) := by
  have hPeer : ∀ peer, (peerMeant peer).flatMap Prod.snd = (peerSection peer).items := by
    intro peer
    cases hKey : peer.presharedKey with
    | none => simp [peerMeant, peerSection, Ini.Section.items, hKey]
    | some key => simp [peerMeant, peerSection, Ini.Section.items, hKey]
  have hFields : (interfaceMeant server l).flatMap Prod.snd =
      (interfaceSection server l).items := by
    unfold interfaceMeant interfaceSection Ini.Section.items
    generalize interfaceFields server l = fields
    rw [List.flatMap_cons, List.flatMap_map, List.map_map]
    exact congrArg _ List.map_eq_flatMap.symm
  rw [meant, List.flatMap_append, hFields, List.flatMap_assoc,
    List.flatMap_congr fun peer _ => hPeer peer, Ini.unread, asRendered, List.map_nil,
    List.nil_append, List.flatMap_cons, List.flatMap_map]

-- ---------------------------------------------------------------------------
-- Reading it back
-- ---------------------------------------------------------------------------

/-- A peer whose texts stay where they are put. -/
structure Clean (peer : DesiredPeer) : Prop where
  comment      : ∀ line ∈ (splitLines peer.comment.toList).tail, Ini.silent line = true
  publicKey    : Ini.Kept peer.publicKey.toList
  presharedKey : ∀ key ∈ peer.presharedKey, Ini.Kept key.toList
  allowedIps   : peer.allowedIps ≠ [] ∧ ∀ a ∈ peer.allowedIps, Ini.KeptInList a.toList

/-- The keys with one value. -/
def scalarKeys : List (List Char) :=
  ["PrivateKey".toList, "Address".toList, "ListenPort".toList, "Table".toList, "PostUp".toList,
    "PostDown".toList, "PublicKey".toList, "PresharedKey".toList]

theorem isKey_scalar {key : List Char} (h : key ∈ scalarKeys) :
    Ini.IsKey key ∧ lists key = false := by
  have hWords : scalarKeys.all (fun key => Ini.isWord key && !lists key) = true := by decide
  obtain ⟨hWord, hScalar⟩ := Bool.and_eq_true_iff.mp (List.all_eq_true.mp hWords key h)
  exact ⟨Ini.isKey_of_word hWord, by simpa using hScalar⟩

theorem isKey_allowedIps : Ini.IsKey "AllowedIPs".toList :=
  Ini.isKey_of_word (by decide)

/-- Text of fixed ends on one line stays where it is put. -/
theorem kept_between {front middle back : List Char}
    (hFront : OneLine front ∧ front.head?.map isSpace = some false)
    (hBack : OneLine back ∧ back.getLast?.map isSpace = some false) (hMiddle : OneLine middle) :
    Ini.Kept (front ++ middle ++ back) := by
  refine ⟨?_, strip_of_ends ?_ ?_⟩
  · exact oneLine_append.mpr ⟨oneLine_append.mpr ⟨hFront.1, hMiddle⟩, hBack.1⟩
  · intro c hc
    obtain ⟨d, hHead, hSpace⟩ := Option.map_eq_some_iff.mp hFront.2
    rw [List.append_assoc, List.head?_append, hHead] at hc
    rwa [← Option.some.inj hc]
  · intro c hc
    obtain ⟨d, hLast, hSpace⟩ := Option.map_eq_some_iff.mp hBack.2
    rw [List.getLast?_append, hLast] at hc
    rwa [← Option.some.inj hc]

/-- The hooks are one line each, whatever the subnet. -/
theorem forwardNatHooks_kept {source : List Char} (hSource : OneLine source) :
    ∀ f ∈ forwardNatHooks source, f.1 ∈ scalarKeys ∧ Ini.Kept f.2 := by
  have hUp : "PostUp".toList ∈ scalarKeys := by decide
  have hDown : "PostDown".toList ∈ scalarKeys := by decide
  intro f hf
  simp only [forwardNatHooks, List.mem_cons, List.not_mem_nil, or_false] at hf
  rcases hf with rfl | rfl | rfl | rfl | rfl | rfl
  · exact ⟨hUp, by decide, by decide⟩
  · exact ⟨hUp, by decide, by decide⟩
  · refine ⟨hUp, kept_between (by decide +kernel) (by decide) ?_⟩
    simp only [oneLine_append]
    exact ⟨⟨⟨by decide, hSource⟩, by decide⟩, hSource⟩
  · exact ⟨hDown, by decide, by decide⟩
  · exact ⟨hDown, by decide, by decide⟩
  · refine ⟨hDown, kept_between (by decide +kernel) (by decide) ?_⟩
    exact oneLine_append.mpr ⟨by decide, hSource⟩

theorem natChars_kept (n : Nat) : Ini.Kept (natChars n) := by
  refine Ini.kept_of_noSpace fun c hc => ?_
  rw [natChars_eq] at hc
  obtain ⟨d, hd, rfl⟩ := List.mem_map.mp hc
  exact (digitChar_spec (natDigits_lt hd)).2.1

/-- Every key of the interface is read back with its value. -/
theorem interfaceFields_kept (server : Server) (l : Listener) :
    ∀ f ∈ interfaceFields server l, f.1 ∈ scalarKeys ∧ Ini.Kept f.2 := by
  have hPrivate : "PrivateKey".toList ∈ scalarKeys := by decide
  have hAddress : "Address".toList ∈ scalarKeys := by decide
  have hPort : "ListenPort".toList ∈ scalarKeys := by decide
  have hTable : "Table".toList ∈ scalarKeys := by decide
  intro f hf
  rcases List.mem_append.mp hf with hFixed | hHook
  · simp only [List.mem_cons, List.not_mem_nil, or_false] at hFixed
    rcases hFixed with rfl | rfl | rfl | rfl
    · exact ⟨hPrivate, server.privateKey_kept⟩
    · exact ⟨hAddress, server.address_kept⟩
    · exact ⟨hPort, natChars_kept l.port⟩
    · exact ⟨hTable, by decide, by decide⟩
  · by_cases hNat : l.enableNat = true
    · rw [if_pos hNat] at hHook
      exact forwardNatHooks_kept server.source_oneLine f hHook
    · rw [if_neg hNat] at hHook
      cases hHook

theorem interfaceMeant_read (server : Server) (l : Listener) :
    ∀ line ∈ interfaceMeant server l, Ini.itemsOf lists line.1 = line.2 := by
  intro line hLine
  rcases List.mem_cons.mp hLine with rfl | hField
  · decide
  · obtain ⟨f, hf, rfl⟩ := List.mem_map.mp hField
    obtain ⟨hMem, hKept⟩ := interfaceFields_kept server l f hf
    obtain ⟨hKey, hScalar⟩ := isKey_scalar hMem
    exact (Ini.itemsOf_field_iff hKey hScalar).mpr hKept

/-- The lines of a peer are read as they are meant exactly if it is clean. -/
theorem peerMeant_read_iff (peer : DesiredPeer) :
    (∀ line ∈ peerMeant peer, Ini.itemsOf lists line.1 = line.2) ↔ Clean peer := by
  have hBlank : Ini.itemsOf lists [] = [] := by decide
  have hHeader : Ini.itemsOf lists "[Peer]".toList = [.header "Peer".toList] := by decide
  obtain ⟨hPublic, hPublicScalar⟩ := isKey_scalar (by decide : "PublicKey".toList ∈ scalarKeys)
  obtain ⟨hPreshared, hPresharedScalar⟩ :=
    isKey_scalar (by decide : "PresharedKey".toList ∈ scalarKeys)
  have hAllowed : lists "AllowedIPs".toList = true := by decide
  simp only [peerMeant, List.forall_mem_append, List.forall_mem_cons, List.forall_mem_map,
    Option.mem_toList, List.not_mem_nil, false_imp_iff, implies_true, and_true, hBlank, hHeader,
    true_and, Ini.itemsOf_comment_iff, Ini.itemsOf_field_iff hPublic hPublicScalar,
    Ini.itemsOf_field_iff hPreshared hPresharedScalar,
    Ini.itemsOf_listField_iff isKey_allowedIps hAllowed, ne_eq, List.map_eq_nil_iff]
  constructor
  · rintro ⟨⟨⟨hComment, hPublicKey⟩, hPresharedKey⟩, hAllowedIps⟩
    exact ⟨hComment, hPublicKey, hPresharedKey, hAllowedIps⟩
  · rintro ⟨hComment, hPublicKey, hPresharedKey, hAllowedIps⟩
    exact ⟨⟨⟨hComment, hPublicKey⟩, hPresharedKey⟩, hAllowedIps⟩

/-- No line says less than it is meant to. -/
theorem peerMeant_length (peer : DesiredPeer) :
    ∀ line ∈ peerMeant peer, line.2.length ≤ (Ini.itemsOf lists line.1).length := by
  have hHeader : Ini.itemsOf lists "[Peer]".toList = [.header "Peer".toList] := by decide
  have hField : ∀ {key value : List Char} {values : List (List Char)}, Ini.IsKey key →
      [Ini.Item.entry (.field key values)].length ≤
        (Ini.itemsOf lists (Ini.fieldLine key value)).length := by
    intro key value values hKey
    obtain ⟨first, rest, hSplit⟩ : ∃ first rest, splitLines value = first :: rest :=
      splitWhere_eq_cons _ value
    rw [Ini.itemsOf_fieldLine hKey hSplit]
    exact Nat.succ_le_succ (Nat.zero_le _)
  obtain ⟨hPublic, -⟩ := isKey_scalar (by decide : "PublicKey".toList ∈ scalarKeys)
  obtain ⟨hPreshared, -⟩ := isKey_scalar (by decide : "PresharedKey".toList ∈ scalarKeys)
  simp only [peerMeant, List.forall_mem_append, List.forall_mem_cons, List.forall_mem_map,
    List.not_mem_nil, false_imp_iff, implies_true, and_true]
  refine ⟨⟨⟨Nat.zero_le _, Nat.zero_le _, ?_, hField hPublic⟩, fun _ _ => hField hPreshared⟩,
    hField isKey_allowedIps⟩
  rw [hHeader]

/--
**The interface file** reads back as one interface and its peers exactly if
every peer is clean. What comes from the configuration cannot break a line;
what comes from an account can.
-/
theorem read_renderInterface_iff (server : Server) (l : Listener) (peers : List DesiredPeer) :
    Ini.read lists (renderInterface server l peers) = asRendered server l peers ↔
      ∀ peer ∈ peers, Clean peer := by
  have hNonempty : meant server l peers ≠ [] := by
    rw [meant, interfaceMeant, List.cons_append]
    exact List.cons_ne_nil _ _
  have hLength : ∀ line ∈ meant server l peers,
      line.2.length ≤ (Ini.itemsOf lists line.1).length := by
    intro line hLine
    rcases List.mem_append.mp hLine with hInterface | hPeers
    · rw [interfaceMeant_read server l line hInterface]
    · obtain ⟨peer, -, hMem⟩ := List.mem_flatMap.mp hPeers
      exact peerMeant_length peer line hMem
  rw [Ini.read_eq_iff, meant_lines, ← meant_items, Ini.itemsOf_joinLines_iff lists hNonempty hLength]
  constructor
  · intro hRead peer hPeer
    refine (peerMeant_read_iff peer).mp fun line hLine => hRead line ?_
    exact List.mem_append_right _ (List.mem_flatMap.mpr ⟨peer, hPeer, hLine⟩)
  · intro hClean line hLine
    rcases List.mem_append.mp hLine with hInterface | hPeers
    · exact interfaceMeant_read server l line hInterface
    · obtain ⟨peer, hPeer, hMem⟩ := List.mem_flatMap.mp hPeers
      exact (peerMeant_read_iff peer).mpr (hClean peer hPeer) line hMem

-- ---------------------------------------------------------------------------
-- Accepted pushes
-- ---------------------------------------------------------------------------

/-- A pushed account that says nothing in the file but what it is: its id has
no line but comments and blank ones after the first, a key pair it came with
has no line break, and its preshared key and the address it asks for, where
they are used, stay where they are put. -/
structure Harmless (p : Platform) (t : Tools) (ls : Listeners) (l : Listener)
    (account : UserAccount) : Prop where
  accountId    : ∀ line ∈ (splitLines account.accountId.toList).tail, Ini.silent line = true
  publicKey    : isSet account.settings "private_key" = true →
    isSet account.settings "public_key" = true →
      '\n' ∉ (p.str (Json.getD account.settings "public_key")).toList
  presharedKey : l.usePresharedKeys = true → isSet account.settings "preshared_key" = true →
    Ini.Kept (p.str (Json.getD account.settings "preshared_key")).toList
  address      : ∀ a, currentAddress p ls account.settings (addressTable p account.settings) l =
      some a → t.inSubnet a l.subnet = true → Ini.KeptInList a.toList

/-- A push the node's checks and the driver's `sync_accounts` accept. -/
structure AcceptedPush (p : Platform) (t : Tools) (ls : Listeners) (chain : Option ChainPeer)
    (raws : List Json) (accounts : List UserAccount) (h : Host) (d d' : Driver) : Prop where
  decoded     : raws.mapM (toUserAccount p) = .ok accounts
  provisioned : h.provisionKeys = provisionKeys p t ls chain
  synced      : (Accounts.WireGuard.syncAccounts h accounts).run d = (.ok (), d')

section Accepted

variable {p : Platform} {t : Tools} {ls : Listeners} {chain : Option ChainPeer}
  {account : UserAccount} {l : Listener}

/-- The characters of keys are visible. -/
theorem isSpace_keyChar {c : Char} (h : keyChar c = true) : isSpace c = false := by
  have hRange : (48 ≤ c.toNat ∧ c.toNat ≤ 57) ∨ (65 ≤ c.toNat ∧ c.toNat ≤ 90) ∨
      (97 ≤ c.toNat ∧ c.toNat ≤ 122) ∨ c.toNat = 43 ∨ c.toNat = 47 := by
    simp only [keyChar, Bool.or_eq_true, beq_iff_eq] at h
    rcases h with (hAlphanum | rfl) | rfl
    · have hClasses : (decide (c.val ≥ 'A'.val ∧ c.val ≤ 'Z'.val) ||
          (decide (c.val ≥ 'a'.val) && decide (c.val ≤ 'z'.val)) ||
          (decide (c.val ≥ '0'.val) && decide (c.val ≤ '9'.val))) = true := hAlphanum
      simp [UInt32.le_iff_toNat_le] at hClasses
      omega
    · decide
    · decide
  rw [isSpace, decide_eq_false_iff_not]
  simp only [List.mem_cons, List.not_mem_nil, or_false]
  omega

/-- A valid key stays where it is put unless it ends in a line break. -/
theorem kept_of_isValidKey {key : List Char} (h : isValidKey key = true) :
    Ini.Kept key ↔ '\n' ∉ key := by
  refine ⟨fun hKept hMem => absurd (hKept.oneLine _ hMem) (by decide),
    fun hBreak => Ini.kept_of_noSpace fun c hc => ?_⟩
  simp only [isValidKey, Bool.and_eq_true, Bool.or_eq_true, decide_eq_true_eq, List.all_eq_true]
    at h
  obtain ⟨⟨-, hChars⟩, hEnd⟩ := h
  rw [← List.take_append_drop 43 key] at hc hBreak
  rcases List.mem_append.mp hc with hFront | hBack
  · exact isSpace_keyChar (hChars c hFront)
  · rcases hEnd with hEquals | hBreaks
    · rw [hEquals] at hBack
      rw [List.mem_singleton.mp hBack]
      decide
    · rw [hBreaks] at hBreak
      exact absurd (List.mem_append_right _ (by decide)) hBreak

/-- The peer of an account is clean exactly if the account is harmless: what
the tools make is clean in any case. -/
theorem clean_iff_harmless {taken : Listener → List String} {a : String}
    (hKey : isValidKey (publicKeyOf p t account).toList = true)
    (hAssigned : assigned p t ls taken account.settings (addressTable p account.settings) l = .ok a) :
    Clean
        { comment := account.accountId
          publicKey := publicKeyOf p t account
          allowedIps := [a]
          presharedKey := presharedOf p t l account } ↔
      Harmless p t ls l account := by
  have hPublic : Ini.Kept (publicKeyOf p t account).toList ↔
      (isSet account.settings "private_key" = true → isSet account.settings "public_key" = true →
        '\n' ∉ (p.str (Json.getD account.settings "public_key")).toList) := by
    rw [kept_of_isValidKey hKey, ← and_imp, ← Bool.and_eq_true, publicKeyOf, withKeypair]
    split
    · rename_i hBoth
      exact ⟨fun hNot _ => hNot, fun hNot => hNot hBoth⟩
    · rename_i hMissing
      rw [Json.getD_assocSet_self]
      exact iff_of_true (t.keypair_oneLine account) fun hBoth => absurd hBoth hMissing
  have hPreshared : (∀ key ∈ presharedOf p t l account, Ini.Kept key.toList) ↔
      (l.usePresharedKeys = true → isSet account.settings "preshared_key" = true →
        Ini.Kept (p.str (Json.getD account.settings "preshared_key")).toList) := by
    unfold presharedOf
    by_cases hUse : l.usePresharedKeys = true
    · rw [if_pos hUse, forall_prop_of_true hUse]
      by_cases hSet : isSet account.settings "preshared_key" = true
      · rw [if_pos hSet, forall_prop_of_true hSet]
        exact ⟨fun h => h _ rfl, fun h key hMem => Option.some.inj hMem ▸ h⟩
      · rw [if_neg hSet]
        refine iff_of_true (fun key hMem => ?_) fun h => absurd h hSet
        exact Option.some.inj hMem ▸ (t.preshared_kept account).2
    · rw [if_neg hUse]
      exact iff_of_true (fun key hMem => by cases hMem) fun h => absurd h hUse
  have hAddress : Ini.KeptInList a.toList ↔
      ∀ b, currentAddress p ls account.settings (addressTable p account.settings) l = some b →
        t.inSubnet b l.subnet = true → Ini.KeptInList b.toList := by
    rcases assigned_cases hAssigned with ⟨hCurrent, hSubnet⟩ | ⟨hNone, hFree⟩
    · constructor
      · intro hKept b hb _
        rwa [← Option.some.inj (hCurrent.symm.trans hb)]
      · intro h
        exact h a hCurrent hSubnet
    · refine iff_of_true (AddressLibrary.allocate_kept hFree).2 fun b hb hSubnet => ?_
      -- an address in the subnet would have been kept
      rw [hb, Option.filter_some, if_pos hSubnet] at hNone
      cases hNone
  constructor
  · rintro ⟨hComment, hPublicKey, hPresharedKey, hAllowedIps⟩
    exact ⟨hComment, hPublic.mp hPublicKey, hPreshared.mp hPresharedKey,
      hAddress.mp (hAllowedIps.2 a List.mem_cons_self)⟩
  · rintro ⟨hComment, hPublicKey, hPresharedKey, hAllowedIps⟩
    refine ⟨hComment, hPublic.mpr hPublicKey, hPreshared.mpr hPresharedKey,
      List.cons_ne_nil _ _, fun b hb => ?_⟩
    rw [List.mem_singleton.mp hb]
    exact hAddress.mpr hAllowedIps

theorem chainPeer_clean (c : ChainPeer) : Clean c.peer where
  comment := by
    show ∀ line ∈ (splitLines "_zg-chain".toList).tail, Ini.silent line = true
    decide
  publicKey := c.publicKey_kept
  presharedKey key hMem := by cases hMem
  allowedIps := c.allowedIps_kept

/-- Where no account fails, the peers are those of the accounts. -/
theorem desiredPeersOf_ok {accounts : List UserAccount}
    (h : ∀ account ∈ accounts, ∃ peer, desiredPeer p ls l account = .ok peer) :
    ∃ peers, desiredPeersOf p ls l accounts = .ok peers ∧
      ∀ peer, peer ∈ peers ↔ ∃ account ∈ accounts, desiredPeer p ls l account = .ok (some peer) := by
  induction accounts with
  | nil => exact ⟨[], rfl, by simp⟩
  | cons account rest ih =>
    obtain ⟨first, hFirst⟩ := h account List.mem_cons_self
    obtain ⟨others, hOthers, hMem⟩ := ih fun other hOther => h other (List.mem_cons_of_mem _ hOther)
    refine ⟨first.toList ++ others, ?_, fun peer => ?_⟩
    · rw [desiredPeersOf, hFirst]
      simp only [hOthers]
      rfl
    · rw [List.mem_append, hMem, Option.mem_toList, List.exists_mem_cons_iff, hFirst]
      exact or_congr_left ⟨fun h => congrArg _ h, fun h => Except.ok.inj h⟩

/-- What a push leaves that the driver accepts: the last account of each id,
provisioned. -/
theorem synced_roster {h : Host} {d d' : Driver} {raws : List Json} {accounts : List UserAccount}
    (hPush : AcceptedPush p t ls chain raws accounts h d d') :
    (∀ account ∈ accounts, ∃ settings,
      provisionKeys p t ls chain d.roster account = .ok settings) ∧
      ∀ kept, kept ∈ d'.roster.table.values ↔
        ∃ account ∈ (Roster.ofAccounts accounts).table.values, ∃ settings,
          provisionKeys p t ls chain d.roster account = .ok settings ∧
            kept = { account with settings := settings } := by
  -- the driver prepares every account before it assigns its dictionary
  have hReturns : Op.Returns (Accounts.WireGuard.syncAccounts h accounts) d fun _ d' =>
      ∃ prepared, accounts.mapM (Accounts.WireGuard.prepare h d.roster) = .ok prepared ∧
        d'.roster = Roster.ofAccounts prepared := by
    refine Op.Returns.get_bind (Op.Returns.bind (Op.Returns.lift fun prepared hPrepared => ?_))
    exact Op.Returns.bind (Op.Returns.modify (returns_call ⟨prepared, hPrepared, rfl⟩))
  obtain ⟨prepared, hPrepared, hRoster⟩ := hReturns () d' hPush.synced
  have hPrepare : ∀ {account kept},
      Accounts.WireGuard.prepare h d.roster account = .ok kept → ∃ settings,
        provisionKeys p t ls chain d.roster account = .ok settings ∧
          kept = { account with settings := settings } := by
    intro account kept hOk
    rw [Accounts.WireGuard.prepare, hPush.provisioned] at hOk
    simp only [bind, Except.bind] at hOk
    split at hOk
    · cases hOk
    split at hOk
    · cases hOk
    · rename_i settings hSettings
      exact ⟨settings, hSettings, (Except.ok.inj hOk).symm⟩
  have hEach : ∀ account ∈ accounts, ∃ kept,
      Accounts.WireGuard.prepare h d.roster account = .ok kept :=
    exists_mapM_ok_iff.mp ⟨_, hPrepared⟩
  -- of two accounts with one id the last stays, but both were prepared
  refine ⟨fun account hMem => ?_, fun kept => ?_⟩
  · obtain ⟨kept, hOk⟩ := hEach account hMem
    obtain ⟨settings, hSettings, -⟩ := hPrepare hOk
    exact ⟨settings, hSettings⟩
  · rw [hRoster, Roster.mem_values_ofAccounts_mapM Accounts.WireGuard.prepare_accountId hPrepared]
    constructor
    · rintro ⟨account, hMem, hOk⟩
      exact ⟨account, hMem, hPrepare hOk⟩
    · rintro ⟨account, hMem, settings, hSettings, rfl⟩
      obtain ⟨kept, hOk⟩ := hEach account (Roster.mem_of_mem_ofAccounts hMem)
      -- provisioning is a function of the account, so these are the settings
      obtain ⟨settings', hSettings', rfl⟩ := hPrepare hOk
      obtain rfl := Except.ok.inj (hSettings.symm.trans hSettings')
      exact ⟨account, hMem, hOk⟩

/-- **Nothing is injected.** After a push that the node and the driver accept,
the file of an interface reads back as it was rendered exactly if every account
with a peer on it is harmless. -/
theorem reads_back_iff {h : Host} {d d' : Driver} {raws : List Json} {accounts : List UserAccount}
    (hPush : AcceptedPush p t ls chain raws accounts h d d')
    (hListener : l ∈ ls.all) (server : Server) :
    ∃ peers, desiredPeers p ls chain d'.roster l = .ok peers ∧
      (Ini.read lists (renderInterface server l peers) = asRendered server l peers ↔
        ∀ account ∈ (Roster.ofAccounts accounts).table.values,
          hasPeer p ls l account = true → Harmless p t ls l account) := by
  obtain ⟨hAll, hKept⟩ := synced_roster hPush
  -- every account that was filed has its addresses, so making peers cannot fail
  have hPeer : ∀ kept ∈ d'.roster.table.values, ∃ peer, desiredPeer p ls l kept = .ok peer := by
    intro kept hMem
    obtain ⟨account, -, settings, hSettings, rfl⟩ := (hKept kept).mp hMem
    have hDesired := desiredPeer_provisioned hListener hSettings
    split at hDesired
    · obtain ⟨a, -, hSome⟩ := hDesired
      exact ⟨_, hSome⟩
    · exact ⟨_, hDesired⟩
  obtain ⟨peers, hPeers, hMem⟩ := desiredPeersOf_ok hPeer
  refine ⟨_, by rw [desiredPeers, hPeers]; rfl, ?_⟩
  rw [read_renderInterface_iff]
  constructor
  -- a clean file: the peer of the account is in it, with the texts of the account
  · intro hClean account hAccount hHas
    obtain ⟨settings, hSettings⟩ := hAll account (Roster.mem_of_mem_ofAccounts hAccount)
    have hDesired := desiredPeer_provisioned hListener hSettings
    rw [if_pos hHas] at hDesired
    obtain ⟨a, hAssigned, hSome⟩ := hDesired
    have hIn := (hMem _).mpr ⟨_, (hKept _).mpr ⟨account, hAccount, settings, hSettings, rfl⟩, hSome⟩
    have hOwn := hClean _ (List.mem_append_left _ hIn)
    exact (clean_iff_harmless (provisionKeys_ok hSettings).1 hAssigned).mp hOwn
  -- harmless accounts: a peer is that of an account, or the driver's own
  · intro hHarmless peer hIn
    rcases List.mem_append.mp hIn with hOwn | hChain
    · obtain ⟨kept, hKeptMem, hSome⟩ := (hMem peer).mp hOwn
      obtain ⟨account, hAccount, settings, hSettings, rfl⟩ := (hKept kept).mp hKeptMem
      have hDesired := desiredPeer_provisioned hListener hSettings
      by_cases hHas : hasPeer p ls l account = true
      · rw [if_pos hHas] at hDesired
        obtain ⟨a, hAssigned, hOther⟩ := hDesired
        obtain rfl := Option.some.inj (Except.ok.inj (hSome.symm.trans hOther))
        exact (clean_iff_harmless (provisionKeys_ok hSettings).1 hAssigned).mpr
          (hHarmless account hAccount hHas)
      · rw [if_neg hHas] at hDesired
        cases hSome.symm.trans hDesired
    · by_cases hPrimary : l.tag = ls.primary.tag
      · rw [if_pos hPrimary] at hChain
        obtain ⟨c, -, rfl⟩ := Option.map_eq_some_iff.mp (Option.mem_toList.mp hChain)
        exact chainPeer_clean c
      · rw [if_neg hPrimary] at hChain
        cases hChain

end Accepted

-- ---------------------------------------------------------------------------
-- An account id with lines of its own
-- ---------------------------------------------------------------------------

/-- Texts without blanks and commas, by a check of each. -/
theorem plain_of_all {hosts : List String}
    (h : (hosts.all fun host => host.toList.all fun c => !isSpace c && c != ',') = true) :
    ∀ host ∈ hosts, ∀ c ∈ host.toList, isSpace c = false ∧ c ≠ ',' := by
  simpa using h

def sampleKey : String := "AAAAAAAAAAAAAAAAAAAAAAAAAAAAAAAAAAAAAAAAAAA="

/-- One key for everything and a pool of two addresses. -/
def sampleTools : Tools where
  keypair _            := (sampleKey, sampleKey)
  preshared _          := sampleKey
  keypair_oneLine _    := by decide
  preshared_kept _     := ⟨by decide, by decide, by decide⟩
  inSubnet current _   := decide (current ∈ ["10.66.66.2/32", "10.66.66.3/32"])
  network _            := .ok ⟨["10.66.66.1", "10.66.66.2", "10.66.66.3"], 32⟩
  inSubnet_empty _     := by decide
  hosts_plain hNet     := by
    rw [← Except.ok.inj hNet]
    exact plain_of_all (by decide)

def sampleListener : Listener := ⟨"wireguard", "10.66.66.0/24", 51820, true, true⟩

def sampleListeners : Listeners := ⟨sampleListener, [], by decide⟩

def sampleServer : Server :=
  ⟨sampleKey.toList, "10.66.66.1/24".toList, "10.66.66.0/24".toList, ⟨by decide, by decide⟩,
    ⟨by decide, by decide⟩, by decide⟩

def sampleHost : Host :=
  { willingHost with provisionKeys := provisionKeys plainPlatform sampleTools sampleListeners none }

/-- What `toUserAccount` makes of `wireguardAccount`. -/
def decodedAccount (id : String) : UserAccount := ⟨1, id, id, "wireguard", true, .null, .null, []⟩

/-- The driver after a push of one account to an empty core. -/
def driverWith (id : String) : Driver :=
  (Accounts.WireGuard.syncAccounts sampleHost [decodedAccount id]).after freshSite.driver

/-- The condition at an account whose id is a letter. -/
theorem reads_back_iff_plainAccount :
    ∃ peers, desiredPeers plainPlatform sampleListeners none (driverWith "a").roster
        sampleListener = .ok peers ∧
      (Ini.read lists (renderInterface sampleServer sampleListener peers) =
          asRendered sampleServer sampleListener peers ↔
        ∀ account ∈ (Roster.ofAccounts [decodedAccount "a"]).table.values,
          hasPeer plainPlatform sampleListeners sampleListener account = true →
            Harmless plainPlatform sampleTools sampleListeners sampleListener account) :=
  have hPush : AcceptedPush plainPlatform sampleTools sampleListeners none
      [.dict (wireguardAccount "a")] [decodedAccount "a"] sampleHost freshSite.driver
      (driverWith "a") := ⟨rfl, rfl, rfl⟩
  reads_back_iff hPush List.mem_cons_self sampleServer

/-- An account id that goes on after a line break. -/
def injectingId : String := "x\n[Interface]\nPostUp = id"

def injectingPeer : DesiredPeer := ⟨injectingId, sampleKey, ["10.66.66.2/32"], some sampleKey⟩

/--
An account id with line breaks. The push is accepted, and the file of the
interface has a second `[Interface]` section, with a command in it that nobody
configured.
-/
theorem interface_injected :
    AcceptedPush plainPlatform sampleTools sampleListeners none
        [.dict (wireguardAccount injectingId)] [decodedAccount injectingId] sampleHost
        freshSite.driver (driverWith injectingId) ∧
      desiredPeers plainPlatform sampleListeners none (driverWith injectingId).roster
        sampleListener = .ok [injectingPeer] ∧
      ((Ini.read lists (renderInterface sampleServer sampleListener [injectingPeer])).2.map
        Ini.Section.name) = ["Interface".toList, "Interface".toList, "Peer".toList] ∧
      Ini.read lists (renderInterface sampleServer sampleListener [injectingPeer]) ≠
        asRendered sampleServer sampleListener [injectingPeer] := by
  have hNames : (Ini.read lists (renderInterface sampleServer sampleListener [injectingPeer])).2.map
      Ini.Section.name = ["Interface".toList, "Interface".toList, "Peer".toList] := by
    decide +kernel
  refine ⟨⟨rfl, rfl, rfl⟩, rfl, hNames, fun hSame => ?_⟩
  rw [hSame] at hNames
  revert hNames
  decide

end ZagrosNode.WireGuard
