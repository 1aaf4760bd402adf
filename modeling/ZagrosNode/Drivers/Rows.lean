import ZagrosNode.Drivers.Documents
import ZagrosNode.Lib.Text

/-!
# ZagrosNode — the rows of a document, read again

OpenVPN, SSH and WireGuard store the rows they make of a document in their
settings, and their constructors read them from there. What comes back is not
always what was stored, but every row keeps its tag and its port.

The module is about one round trip for three drivers. A row is made of an entry, stored,
and read by the constructor's normalisation, which fills in what is missing and converts
what is there. Not every field comes back as it was: a row without an MTU may be given
that of the flat settings, and texts are stripped. The tag and the port do come back,
and with the protocol of the driver these are what an inbound is compared by.

`Sound` is the property of rows that survives: the tag is a text that is its own label
(`IsName`), and the port reads as the number it is. Rows made from the flat settings
have it, and every field that is put into a row keeps it; there is one lemma for each
way of putting one. The normalisation of a sound row has the same end.

Main results:

* `OpenVpn.stored_accepted`, `Ssh.derive_stored`, `WireGuard.stored_accepted` — the
  rows of an accepted document, read again by the constructor.
-/

namespace ZagrosNode.Drivers

open ZagrosNode.Lib ZagrosNode.Cores
open ZagrosNode.WireGuard (putTruthy putGiven itemsOf textOf flagOf fieldsOf)

-- ---------------------------------------------------------------------------
-- Labels
-- ---------------------------------------------------------------------------

section Labels

variable (lang : Lang)

/-- The label of a text is the text without blanks around it. -/
theorem label_str (s : String) : lang.label (.str s) = String.ofList (strip s.toList) := by
  unfold Lang.label Json.or
  by_cases hEmpty : s = ""
  · subst hEmpty
    rfl
  · rw [if_pos (by rw [Json.truthy, bne_iff_ne]; exact hEmpty)]
    rfl

theorem label_label (v : Json) : lang.label (.str (lang.label v)) = lang.label v := by
  rw [label_str, Lang.label, String.toList_ofList, strip_strip]

/-- Text without blanks is its own label. -/
theorem label_of_noSpace {s : String} (h : ∀ c ∈ s.toList, isSpace c = false) :
    lang.label (.str s) = s := by
  rw [label_str, strip_of_noSpace h, String.ofList_toList]

theorem append_ne_empty {s t : String} (h : s ≠ "") : s ++ t ≠ "" :=
  fun hEmpty => h (String.append_eq_empty_iff.mp hEmpty).1

/-- So is a word with a number after it. -/
theorem label_numbered {word : String} (h : ∀ c ∈ word.toList, isSpace c = false) (n : Int) :
    lang.label (.str (word ++ toString n)) = word ++ toString n := by
  refine label_of_noSpace lang fun c hMem => ?_
  rw [String.toList_append] at hMem
  exact (List.mem_append.mp hMem).elim (h c) isSpace_of_mem_toString

/-- A text that is its own label, and not empty. -/
def IsName (tag : String) : Prop := lang.label (.str tag) = tag ∧ tag ≠ ""

theorem isName_label {v : Json} (h : lang.label v ≠ "") : IsName lang (lang.label v) :=
  ⟨label_label lang v, h⟩

theorem isName_of_noSpace {s : String} (h : ∀ c ∈ s.toList, isSpace c = false) (hNe : s ≠ "") :
    IsName lang s := ⟨label_of_noSpace lang h, hNe⟩

/-- What a row without a label is called in its place. -/
theorem isName_or (v : Json) {other : String} (h : IsName lang other) :
    IsName lang (if lang.label v = "" then other else lang.label v) := by
  split
  · exact h
  · rename_i hLabel
    exact isName_label lang hLabel

theorem IsName.choose {tag : String} (h : IsName lang tag) {other : String} :
    (if lang.label (.str tag) = "" then other else lang.label (.str tag)) = tag := by
  rw [h.1, if_neg h.2]

end Labels

-- ---------------------------------------------------------------------------
-- Rows as inbounds
-- ---------------------------------------------------------------------------

/-- A row with this tag and this port. -/
def Listens (row : Settings) (tag : String) (port : Int) : Prop :=
  Json.get? row "tag" = some (.str tag) ∧ Json.get? row "port" = some (.num port)

theorem getD_of_get? {d : Settings} {key : String} {v : Json} (h : Json.get? d key = some v) :
    Json.getD d key = v := by
  rw [Json.getD_eq, h]
  rfl

theorem rowInbound_ok {protocol : String} {row : Settings} {tag : String} {port : Int}
    (h : Listens row tag port) :
    rowInbound protocol row = .ok ⟨.str tag, .str protocol, .num port⟩ := by
  unfold rowInbound item
  rw [h.1, h.2]
  rfl

/-- Rows show as the inbounds of their tags and ports. -/
theorem rowInbounds_ok {protocol : String} {rows : List Settings} {ends : List (String × Int)}
    (h : List.Forall₂ (fun row e => Listens row e.1 e.2) rows ends) :
    rows.mapM (rowInbound protocol) =
      .ok (ends.map fun e => ⟨.str e.1, .str protocol, .num e.2⟩) := by
  rw [mapM_ok_iff, List.forall₂_map_right_iff]
  exact h.imp fun _ _ => rowInbound_ok

theorem someInbounds_ne_nil {complaint : String} {document : Settings} {inbounds : List Json}
    (h : someInbounds complaint document = .ok inbounds) : inbounds ≠ [] := by
  unfold someInbounds at h
  obtain ⟨found, -, h⟩ := bind_ok_iff.mp h
  split at h
  · cases h
  · rename_i hSome
    rw [← Except.ok.inj h]
    exact fun hNil => hSome (List.isEmpty_iff.mpr hNil)

theorem setTruthy_keys {lang : Lang} {key : String} {v : Option Json} {e : String × Json}
    (h : e ∈ setTruthy lang key v) : e.1 = key := by
  unfold setTruthy at h
  dsimp only at h
  split at h
  · rw [List.mem_singleton.mp h]
  · cases h

theorem setText_keys {lang : Lang} {key : String} {v : Option Json} {e : String × Json}
    (h : e ∈ setText lang key v) : e.1 = key := by
  unfold setText at h
  dsimp only at h
  split at h
  · cases h
  · rw [List.mem_singleton.mp h]

-- ---------------------------------------------------------------------------
-- Copied keys
-- ---------------------------------------------------------------------------

theorem get?_copyKeys_of_not_mem {keys : List String} {row : Settings} {key : String}
    (h : key ∉ keys) (out : Settings) :
    Json.get? (copyKeys keys row out) key = Json.get? out key := by
  induction keys generalizing out with
  | nil => rfl
  | cons first rest ih =>
    rw [List.mem_cons, not_or] at h
    refine (ih h.2 _).trans ?_
    dsimp only
    split
    · rfl
    · rw [Json.get?_assocSet, if_neg (Ne.symm h.1)]

/-- A key of the row that has a value is copied. -/
theorem get?_copyKeys {keys : List String} {row : Settings} {key : String} (h : key ∈ keys)
    (hValue : Json.getD row key ≠ .null) (out : Settings) :
    Json.get? (copyKeys keys row out) key = some (Json.getD row key) := by
  induction keys generalizing out with
  | nil => cases h
  | cons first rest ih =>
    by_cases hRest : key ∈ rest
    · exact ih hRest _
    · obtain rfl : key = first := (List.mem_cons.mp h).resolve_right hRest
      refine (get?_copyKeys_of_not_mem hRest _).trans ?_
      dsimp only
      split
      · rename_i hNull
        exact absurd hNull hValue
      · rw [Json.get?_assocSet, if_pos rfl]

theorem get?_copyKeys_of_null {keys : List String} {row : Settings} {key : String}
    (h : Json.getD row key = .null) (out : Settings) :
    Json.get? (copyKeys keys row out) key = Json.get? out key := by
  induction keys generalizing out with
  | nil => rfl
  | cons first rest ih =>
    refine (ih _).trans ?_
    dsimp only
    split
    · rfl
    · rename_i hValue
      rw [Json.get?_assocSet, if_neg]
      rintro rfl
      exact hValue h

/-- Copied, a value that is there. -/
theorem getD_copied {keys : List String} {row : Settings} {key : String} {v : Json}
    (hKey : key ∈ keys) (h : Json.get? row key = some v) (hNull : v ≠ .null) (out : Settings) :
    Json.getD (copyKeys keys row out) key = v := by
  have hRow := getD_of_get? h
  exact getD_of_get? ((get?_copyKeys hKey (hRow ▸ hNull) out).trans (congrArg some hRow))

-- ---------------------------------------------------------------------------
-- OpenVPN
-- ---------------------------------------------------------------------------

namespace OpenVpn

variable {lang : Lang}

/-- A row that has come from flat settings, or from an entry over such a row. -/
structure Sound (row : Settings) : Prop where
  port : ∃ port, Json.get? row "port" = some (.num port)
  dns  : ∃ dns, Json.get? row "dns_servers" = some (.list dns)

theorem Sound.assocSet {row : Settings} (h : Sound row) {key : String} (hPort : key ≠ "port")
    (hDns : key ≠ "dns_servers") (v : Json) : Sound (assocSet key v row) := by
  constructor
  · rw [Json.get?_assocSet, if_neg hPort]
    exact h.port
  · rw [Json.get?_assocSet, if_neg hDns]
    exact h.dns

theorem sound_fromFlat {s row : Settings} (h : listenerFromFlat lang s = .ok row) : Sound row := by
  unfold listenerFromFlat at h
  simp only [bind_ok_iff] at h
  obtain ⟨port, -, dns, -, hEq⟩ := h
  rw [← Except.ok.inj hEq]
  exact ⟨⟨port, rfl⟩, dns, rfl⟩

theorem sound_putTruthy {row : Settings} (h : Sound row) (ib : Settings) (key : String)
    {name : String} (hPort : name ≠ "port") (hDns : name ≠ "dns_servers") (value : Json → Json) :
    Sound (putTruthy ib key name value row) := by
  unfold putTruthy
  split
  · exact h.assocSet hPort hDns _
  · exact h

theorem sound_putGiven {row : Settings} (h : Sound row) (ib : Settings) (key : String)
    {name : String} (hPort : name ≠ "port") (hDns : name ≠ "dns_servers") (value : Json → Json) :
    Sound (putGiven ib key name value row) := by
  unfold putGiven
  split
  · exact h
  · exact h.assocSet hPort hDns _

/-- The resolvers of an entry are a list. -/
theorem sound_putDns {row : Settings} (h : Sound row) (ib : Settings) :
    Sound (putGiven ib "dns" "dns_servers" (itemsOf lang) row) := by
  unfold putGiven
  split
  · exact h
  · constructor
    · rw [Json.get?_assocSet, if_neg (by decide)]
      exact h.port
    · exact ⟨_, by rw [Json.get?_assocSet, if_pos rfl, itemsOf]⟩

theorem sound_putChecked {given allowed : Bool} {name text complaint : String} {row row' : Settings}
    (hOk : putChecked given name text allowed complaint row = .ok row') (h : Sound row)
    (hPort : name ≠ "port") (hDns : name ≠ "dns_servers") : Sound row' := by
  unfold putChecked at hOk
  split at hOk
  · exact Except.ok.inj hOk ▸ h
  · split at hOk
    · exact Except.ok.inj hOk ▸ h.assocSet hPort hDns _
    · cases hOk

theorem sound_setText {row : Settings} (h : Sound row) (v : Option Json) :
    Sound (Json.merge row (setText lang "extra_directives" v)) := by
  unfold setText
  dsimp only
  split
  · exact h
  · have hKeys : "extra_directives" ≠ "port" ∧ "extra_directives" ≠ "dns_servers" := by decide
    exact h.assocSet hKeys.1 hKeys.2 _

theorem sound_putFields {tag : String} {ib entry row : Settings} (h : Sound entry)
    (hOk : putFields lang tag ib entry = .ok row) : Sound row := by
  unfold putFields putTransport at hOk
  simp only [bind_ok_iff] at hOk
  obtain ⟨transport, hTransport, topology, hTopology, _, -, netmask, hNetmask, compression,
    hCompression, hEq⟩ := hOk
  rw [← Except.ok.inj hEq]
  have h := sound_putTruthy h ib "listen" (by decide : "listen" ≠ "port") (by decide) (textOf lang)
  have h := sound_putChecked hTransport h (by decide) (by decide)
  have h := sound_putChecked hTopology h (by decide) (by decide)
  have h := sound_putTruthy h ib "subnet" (by decide : "subnet" ≠ "port") (by decide)
    (fun v => .str (stripped lang v))
  have h := sound_putChecked hNetmask h (by decide) (by decide)
  have h := sound_putTruthy h ib "cipher" (by decide : "cipher" ≠ "port") (by decide) (textOf lang)
  have h := sound_putTruthy h ib "cipher_fallback" (by decide : "cipher_fallback" ≠ "port")
    (by decide) (textOf lang)
  have h := sound_putGiven h ib "auth" (by decide : "auth_digest" ≠ "port") (by decide) (textOf lang)
  have h := sound_putChecked hCompression h (by decide) (by decide)
  exact sound_setText (sound_putGiven (sound_putDns h ib) ib "redirect_gateway" (by decide)
    (by decide) flagOf) _

theorem sound_putPort {template start : Settings} {tag : String} {v : Json} (h : Sound template)
    (hOk : putPort lang tag template v = .ok start) : Sound start := by
  unfold putPort at hOk
  split at hOk
  · exact Except.ok.inj hOk ▸ h
  · obtain ⟨port, -, rfl⟩ := map_ok_iff.mp hOk
    constructor
    · exact ⟨port, by rw [Json.get?_assocSet, if_pos rfl]⟩
    · rw [Json.get?_assocSet, if_neg (by decide)]
      exact h.dns

/-- The row of an entry, once it may serve only what OpenVPN serves: it has a name,
and a port. -/
theorem readEntry_ok {template row : Settings} {v : Json} (hTemplate : Sound template)
    (h : readEntry lang template v = .ok row)
    (hProto : lang.str (Json.getD row "proto") ∈ ["udp", "tcp"]) :
    Sound row ∧ ∃ tag port, Listens row tag port ∧ IsName lang tag := by
  unfold readEntry at h
  obtain ⟨ib, -, h⟩ := bind_ok_iff.mp h
  split at h
  · cases h
  · simp only [bind_ok_iff, py_ok_iff] at h
    obtain ⟨start, hStart, entry, hEntry, port, hPort, hEq⟩ := h
    have hSound := sound_putFields (sound_putPort hTemplate hStart) hEntry
    -- the port that names the row is the one that is stored
    obtain ⟨number, hNumber⟩ := hSound.port
    obtain rfl : number = port := by
      rw [getD_of_get? hNumber] at hPort
      exact Except.ok.inj hPort
    rw [← Except.ok.inj hEq, Json.getD_assocSet_of_ne (by decide)] at hProto
    rw [← Except.ok.inj hEq]
    refine ⟨hSound.assocSet (by decide) (by decide) _, _, number,
      ⟨by rw [Json.get?_assocSet, if_pos rfl], ?_⟩, ?_⟩
    · rw [Json.get?_assocSet, if_neg (by decide), hNumber]
    -- a row without a name is named after its transport and port, without a blank
    · refine isName_or lang _ (isName_of_noSpace lang (fun c hMem => ?_)
        (append_ne_empty (append_ne_empty (append_ne_empty (by decide)))))
      simp only [String.toList_append, List.mem_append] at hMem
      rcases hMem with ((hWord | hDigits) | hDash) | hEnd
      · exact noSpace_ofList rfl c hWord
      · exact isSpace_of_mem_toString hDigits
      · exact noSpace_ofList rfl c hDash
      · simp only [List.mem_cons, List.not_mem_nil, or_false] at hProto
        rcases hProto with hUdp | hTcp
        · rw [hUdp] at hEnd
          exact noSpace_ofList rfl c hEnd
        · rw [hTcp] at hEnd
          exact noSpace_ofList rfl c hEnd

theorem validateListenerSet_proto {seen rows : List Endpoint}
    (h : validateListenerSet seen rows = .ok ()) : ∀ row ∈ rows, row.proto ∈ ["udp", "tcp"] := by
  induction rows generalizing seen with
  | nil => exact fun row hRow => absurd hRow List.not_mem_nil
  | cons row rest ih =>
    unfold validateListenerSet at h
    split at h
    · cases h
    · split at h
      · cases h
      · rename_i hProto
        rw [List.forall_mem_cons]
        refine ⟨?_, ?_⟩
        · simpa only [Bool.not_eq_true', decide_eq_false_iff_not, not_not] using hProto
        · split at h
          · cases h
          · split at h
            · cases h
            · split at h
              · cases h
              · exact ih h

theorem authMode_keys {mode : Option Json} {set : Settings} (h : authMode lang mode = .ok set) :
    ∀ e ∈ set, e.1 = "auth_mode" := by
  unfold authMode at h
  dsimp only at h
  split at h
  · rw [← Except.ok.inj h]
    exact fun e hMem => absurd hMem List.not_mem_nil
  · split at h
    · rw [← Except.ok.inj h]
      exact fun e hMem => congrArg Prod.fst (List.mem_singleton.mp hMem)
    · cases h

/-- The settings that all rows have in common. -/
def knobKeys : List String := ["auth_mode", "static_user", "static_pass"]

theorem knobs_keys {entries : List (Settings × String)} {set : Settings}
    (h : knobs lang entries = .ok set) : ∀ e ∈ set, e.1 ∈ knobKeys := by
  unfold knobs at h
  simp only [bind_ok_iff] at h
  obtain ⟨_, -, mode, hMode, username, -, password, -, hEq⟩ := h
  rw [← Except.ok.inj hEq]
  intro e hMem
  simp only [List.mem_append] at hMem
  rcases hMem with (hMem | hMem) | hMem
  · rw [authMode_keys hMode e hMem]
    decide
  · rw [setTruthy_keys hMem]
    decide
  · rw [setTruthy_keys hMem]
    decide

/-- A row of an accepted document. -/
structure Accepted (lang : Lang) (row : Settings) (e : String × Int) : Prop where
  sound   : Sound row
  listens : Listens row e.1 e.2
  name    : IsName lang e.1

/-- What an accepted document sets. -/
theorem updates_ok {s document set : Settings} (h : updates lang s document = .ok set) :
    ∃ common rows ends, set = common ++ ("listeners", rowsOf rows) :: mirrored rows ∧
      (∀ e ∈ common, e.1 ∈ knobKeys) ∧ rows ≠ [] ∧
        List.Forall₂ (Accepted lang) rows ends := by
  unfold updates at h
  simp only [bind_ok_iff, py_ok_iff] at h
  obtain ⟨inbounds, hInbounds, template, hTemplate, rows, hRows, endpoints, hEndpoints, _,
    hValid, common, hCommon, _, -, hEq⟩ := h
  have hEach : ∀ row ∈ rows, ∃ e, Accepted lang row e := by
    intro row hRow
    obtain ⟨v, -, hRead⟩ := mem_of_mapM_right hRows hRow
    have hProto : lang.str (Json.getD row "proto") ∈ ["udp", "tcp"] := by
      obtain ⟨end_, hEnd, hRowEnd⟩ := mem_of_mapM_left hEndpoints hRow
      obtain ⟨port, -, hEq⟩ := bind_ok_iff.mp hRowEnd
      have hAllowed := validateListenerSet_proto hValid end_ hEnd
      rwa [← Except.ok.inj hEq] at hAllowed
    obtain ⟨hSound, tag, port, hListens, hName⟩ :=
      readEntry_ok (sound_fromFlat hTemplate) hRead hProto
    exact ⟨(tag, port), hSound, hListens, hName⟩
  obtain ⟨ends, hEnds⟩ := exists_forall₂ hEach
  exact ⟨common, rows, ends, (Except.ok.inj hEq).symm, knobs_keys hCommon,
    mapM_ne_nil (someInbounds_ne_nil hInbounds) hRows, hEnds⟩

/-- Read again, a row keeps its tag and its port. -/
theorem normalize_accepted {s row template : Settings} {e : String × Int}
    (hFlat : listenerFromFlat lang s = .ok template) (h : Accepted lang row e) :
    ∃ row', normalizeListener lang s (.dict row) = .ok row' ∧ Listens row' e.1 e.2 := by
  obtain ⟨dns, hDns⟩ := h.sound.dns
  have hCopied : Json.getD (copyKeys listenerKeys row template) "port" = .num e.2 :=
    getD_copied (by decide) h.listens.2 Json.noConfusion template
  have hResolvers : Json.getD (copyKeys listenerKeys row template) "dns_servers" = .list dns :=
    getD_copied (by decide) hDns Json.noConfusion template
  have hDnsOk : ∃ found, listOr (assocSet "port" (.num e.2) (copyKeys listenerKeys row template))
      "dns_servers" [] = .ok found := by
    rw [listOr, Json.getD_assocSet_of_ne (by decide), hResolvers, Json.or]
    split
    · exact ⟨dns, rfl⟩
    · exact ⟨[], rfl⟩
  obtain ⟨found, hFound⟩ := hDnsOk
  refine ⟨_, bind_ok_iff.mpr ⟨template, hFlat, bind_ok_iff.mpr ⟨e.2, by rw [hCopied]; rfl,
    bind_ok_iff.mpr ⟨found, hFound, rfl⟩⟩⟩, ?_, ?_⟩
  · rw [Json.get?_assocSet, if_pos rfl, getD_of_get? h.listens.1, h.name.choose]
  · rw [Json.get?_assocSet, if_neg (by decide), Json.get?_assocSet, if_neg (by decide),
      Json.get?_assocSet, if_pos rfl]

section Stored

variable {s : Settings} {rows : List Settings} {ends : List (String × Int)}

theorem listeners_accepted (hNe : rows ≠ []) (hStored : Json.getD s "listeners" = rowsOf rows) :
    listeners lang s = .ok rows := by
  unfold listeners
  rw [hStored, if_pos (rowsOf_truthy hNe), listOf_rows]
  exact mapM_dictOf rows

theorem stored_accepted {template : Settings} (hNe : rows ≠ [])
    (hRows : List.Forall₂ (Accepted lang) rows ends)
    (hStored : Json.getD s "listeners" = rowsOf rows)
    (hFlat : listenerFromFlat lang s = .ok template) :
    ∃ again, storedListeners lang s = .ok again ∧
      List.Forall₂ (fun row e => Listens row e.1 e.2) again ends := by
  have hPairs : List.Forall₂ (fun v e => ∃ row, v = Json.dict row ∧ Accepted lang row e)
      (rows.map .dict) ends :=
    List.forall₂_map_left_iff.mpr (hRows.imp fun row _ h => ⟨row, rfl, h⟩)
  obtain ⟨again, hAgain, hListens⟩ := exists_mapM_forall₂ (f := normalizeListener lang s)
    (fun _ _ ⟨_, hEq, h⟩ => hEq ▸ normalize_accepted hFlat h) hPairs
  refine ⟨again, ?_, hListens⟩
  unfold storedListeners
  rw [hStored, if_pos (rowsOf_truthy hNe), listOf_rows]
  exact hAgain

/-- The flat settings that mirror a row can be read. -/
theorem fromFlat_mirrored {row : Settings} (h : Sound row)
    (hFlat : ∀ key ∈ listenerKeys, Json.getD s key = Json.getD row key) :
    ∃ template, listenerFromFlat lang s = .ok template := by
  obtain ⟨port, hPort⟩ := h.port
  obtain ⟨dns, hDns⟩ := h.dns
  have hPortOk : ∃ n, intOr s "port" 1194 = .ok n := by
    rw [intOr, hFlat "port" (by decide), getD_of_get? hPort, Json.or]
    split
    · exact ⟨port, rfl⟩
    · exact ⟨1194, rfl⟩
  have hDnsOk : ∃ found, listOr s "dns_servers" resolvers = .ok found := by
    rw [listOr, hFlat "dns_servers" (by decide), getD_of_get? hDns, Json.or]
    split
    · exact ⟨dns, rfl⟩
    · exact ⟨resolvers, rfl⟩
  obtain ⟨n, hPortOk⟩ := hPortOk
  obtain ⟨found, hDnsOk⟩ := hDnsOk
  exact ⟨_, bind_ok_iff.mpr ⟨n, hPortOk, bind_ok_iff.mpr ⟨found, hDnsOk, rfl⟩⟩⟩

end Stored

end OpenVpn

-- ---------------------------------------------------------------------------
-- SSH
-- ---------------------------------------------------------------------------

namespace Ssh

variable {lang : Lang}

theorem isName_of_readEntry {s : Settings} {listeners : List Settings} {single : Bool} {v : Json}
    {row : Row} (h : readEntry lang s listeners single v = .ok row) : IsName lang row.tag := by
  unfold readEntry at h
  obtain ⟨ib, -, h⟩ := bind_ok_iff.mp h
  split at h
  · cases h
  · obtain ⟨port, -, hEq⟩ := bind_ok_iff.mp h
    rw [← Except.ok.inj hEq]
    dsimp only
    split
    · rename_i hLabel
      exact isName_label lang hLabel
    · split
      · exact isName_of_noSpace lang (noSpace_ofList rfl) (by decide)
      · exact ⟨label_numbered lang (noSpace_ofList rfl) port, append_ne_empty (by decide)⟩

theorem authMethods_keys {authentication : Option Json} {set : Settings}
    (h : authMethods lang authentication = .ok set) :
    ∀ e ∈ set, e.1 ∈ ["password_auth", "pubkey_auth"] := by
  unfold authMethods at h
  dsimp only at h
  split at h
  · rw [← Except.ok.inj h]
    exact fun e hMem => absurd hMem List.not_mem_nil
  · split at h
    · rw [← Except.ok.inj h]
      intro e hMem
      rcases List.mem_cons.mp hMem with rfl | hMem
      · exact List.mem_cons_self
      · rw [List.mem_singleton.mp hMem]
        exact List.mem_cons_of_mem _ List.mem_cons_self
    · cases h

theorem maxSessions_keys {sessions : Option Json} {set : Settings}
    (h : maxSessions sessions = .ok set) : ∀ e ∈ set, e.1 = "max_sessions" := by
  cases sessions with
  | none =>
    rw [← Except.ok.inj h]
    exact fun e hMem => absurd hMem List.not_mem_nil
  | some v =>
    obtain ⟨n, -, rfl⟩ := map_ok_iff.mp h
    exact fun e hMem => congrArg Prod.fst (List.mem_singleton.mp hMem)

/-- The settings that all entries have in common. -/
def knobKeys : List String :=
  ["password_auth", "pubkey_auth", "shell", "sftp", "max_sessions", "default_password", "banner",
    "default_authorized_key"]

theorem knobs_keys {s : Settings} {entries : List (Settings × String)} {set : Settings}
    (h : knobs lang s entries = .ok set) : ∀ e ∈ set, e.1 ∈ knobKeys := by
  unfold knobs at h
  obtain ⟨authentication, -, h⟩ := bind_ok_iff.mp h
  obtain ⟨methods, hMethods, h⟩ := bind_ok_iff.mp h
  dsimp only at h
  split at h
  · cases h
  · simp only [bind_ok_iff] at h
    obtain ⟨shell, -, sftp, -, _, -, sessions, hSessions, password, -, banner, -, publicKey, -,
      hEq⟩ := h
    rw [← Except.ok.inj hEq]
    intro e hMem
    simp only [List.mem_append] at hMem
    rcases hMem with (((((hMem | hMem) | hMem) | hMem) | hMem) | hMem) | hMem
    · exact (by decide : ["password_auth", "pubkey_auth"] ⊆ knobKeys) (authMethods_keys hMethods e hMem)
    · rw [setTruthy_keys hMem]
      decide
    · obtain ⟨v, -, rfl⟩ := Option.map_eq_some_iff.mp (Option.mem_toList.mp hMem)
      exact (by decide : "sftp" ∈ knobKeys)
    · rw [maxSessions_keys hSessions e hMem]
      decide
    · rw [setText_keys hMem]
      decide
    · rw [setText_keys hMem]
      decide
    · rw [setText_keys hMem]
      decide

/-- What an accepted document comes to. -/
theorem rowsAndKnobs_ok {s document set : Settings} {listeners : List Settings} {rows : List Row}
    (h : rowsAndKnobs lang s listeners document = .ok (rows, set)) :
    rows ≠ [] ∧ (∀ row ∈ rows, IsName lang row.tag) ∧ ∀ e ∈ set, e.1 ∈ knobKeys := by
  unfold rowsAndKnobs at h
  simp only [bind_ok_iff] at h
  obtain ⟨inbounds, hInbounds, rows', hRows, _, -, set', hSet, hEq⟩ := h
  obtain ⟨rfl, rfl⟩ := Prod.mk.inj (Except.ok.inj hEq)
  refine ⟨mapM_ne_nil (someInbounds_ne_nil hInbounds) hRows, fun row hRow => ?_, knobs_keys hSet⟩
  obtain ⟨v, -, hRead⟩ := mem_of_mapM_right hRows hRow
  exact isName_of_readEntry hRead

theorem listens_entries (row : Row) : Listens row.entries row.tag row.port :=
  ⟨rfl, rfl⟩

/-- Read again, a row keeps its tag and its port. -/
theorem derive_entries {row : Row} (h : IsName lang row.tag) :
    ∃ again, deriveListener lang (.dict row.entries) = .ok (some again) ∧
      Listens again row.tag row.port := by
  have hTag : Json.getD row.entries "tag" = .str row.tag := getD_of_get? (listens_entries row).1
  refine ⟨_, rfl, ?_, rfl⟩
  show some (Json.str (if lang.label (Json.getD row.entries "tag") = "" then s!"ssh-{row.port}"
    else lang.label (Json.getD row.entries "tag"))) = _
  rw [hTag, h.choose]

/-- The ends of rows. -/
def ends (rows : List Row) : List (String × Int) := rows.map fun row => (row.tag, row.port)

theorem listens_rows (rows : List Row) :
    List.Forall₂ (fun row e => Listens row e.1 e.2) (rows.map Row.entries) (ends rows) := by
  rw [ends, List.forall₂_map_left_iff, List.forall₂_map_right_iff, List.forall₂_same]
  exact fun row _ => listens_entries row

theorem derive_stored {s : Settings} {rows : List Row} (hNe : rows ≠ [])
    (hNames : ∀ row ∈ rows, IsName lang row.tag)
    (hStored : Json.getD s "listeners" = rowsOf (rows.map Row.entries)) :
    ∃ again, deriveListeners lang s = .ok again ∧
      List.Forall₂ (fun row e => Listens row e.1 e.2) again (ends rows) := by
  -- every stored row is read, and none is passed over
  have hPairs : List.Forall₂ (fun v (row : Row) => v = Json.dict row.entries ∧ IsName lang row.tag)
      ((rows.map Row.entries).map .dict) rows := by
    rw [List.map_map, List.forall₂_map_left_iff, List.forall₂_same]
    exact fun row hMem => ⟨rfl, hNames row hMem⟩
  obtain ⟨found, hFound, hListens⟩ := exists_mapM_forall₂ (f := deriveListener lang)
    (S := fun row' (row : Row) => ∃ again, row' = some again ∧ Listens again row.tag row.port)
    (fun v row ⟨hEq, hName⟩ => by
      obtain ⟨again, hAgain, hListens⟩ := derive_entries hName
      exact ⟨_, hEq ▸ hAgain, again, rfl, hListens⟩) hPairs
  have hAgain : List.Forall₂ (fun row e => Listens row e.1 e.2) found.reduceOption (ends rows) := by
    clear hFound hPairs hStored hNames hNe
    induction hListens with
    | nil => exact List.Forall₂.nil
    | cons hHead _ ih =>
      obtain ⟨again, rfl, hHead⟩ := hHead
      exact List.Forall₂.cons hHead ih
  refine ⟨found.reduceOption, ?_, hAgain⟩
  -- rows that are there are not replaced by the flat ones
  have hList : listOr s "listeners" [] = .ok ((rows.map Row.entries).map .dict) := by
    rw [listOr, hStored, Json.or, if_pos (rowsOf_truthy (mt List.map_eq_nil_iff.mp hNe)), listOf_rows]
  unfold deriveListeners
  rw [hList]
  show ((rows.map Row.entries).map Json.dict).mapM (deriveListener lang) >>= _ = _
  rw [hFound]
  dsimp only [bind, Except.bind]
  split
  · rename_i hNil
    rw [hNil] at hAgain
    exact absurd (List.map_eq_nil_iff.mp (List.forall₂_nil_left_iff.mp hAgain)) hNe
  · rfl

end Ssh

-- ---------------------------------------------------------------------------
-- WireGuard
-- ---------------------------------------------------------------------------

namespace WireGuard

open ZagrosNode.WireGuard (Admits Passes validateListener_ok_iff parseInbound parseInbounds
  parseStudioDocument)

variable {lang : Lang}

/-- A row that has been normalised. -/
structure Sound (lang : Lang) (row : Settings) : Prop where
  listens   : ∃ tag port, Listens row tag port ∧ IsName lang tag
  interface : ∃ interface, Json.get? row "interface" = some (.str interface)
  dns       : ∃ dns, Json.get? row "dns_servers" = some (.list dns)
  mtu       : Json.getD row "mtu" = .null ∨ ∃ mtu, Json.getD row "mtu" = .num mtu
  allowed   : ∃ allowed, Json.get? row "peer_allowed_ips" = some (.list allowed)
  keepalive : ∃ seconds, Json.get? row "peer_keepalive" = some (.num seconds)

theorem mtuOf_ok {v mtu : Json} (h : mtuOf v = .ok mtu) : mtu = .null ∨ ∃ n, mtu = .num n := by
  unfold mtuOf at h
  split at h
  · exact Or.inl (Except.ok.inj h).symm
  · exact Or.inl (Except.ok.inj h).symm
  · obtain ⟨n, -, rfl⟩ := map_ok_iff.mp h
    exact Or.inr ⟨n, rfl⟩

theorem sound_normalize {s row : Settings} {v : Json} {index : Nat}
    (h : normalizeListener lang s v index = .ok row) : Sound lang row := by
  unfold normalizeListener at h
  simp only [bind_ok_iff] at h
  obtain ⟨template, -, first, -, port, -, dns, -, mtu, hMtu, allowed, -, seconds, -, hEq⟩ := h
  rw [← Except.ok.inj hEq]
  refine ⟨⟨?text, port, ⟨?tag, ?port⟩, ?name⟩, ⟨?device, ?interface⟩, ⟨dns, ?dns⟩, ?mtu,
    ⟨allowed, ?allowed⟩, seconds, ?keepalive⟩
  case tag =>
    simp only [Json.get?_merge, Json.get?_cons, Json.get?_nil, String.reduceEq, if_false,
      Option.none_or]
    have hKey : "tag" ∉ listenerKeys := by decide
    rw [get?_copyKeys_of_not_mem hKey, Json.get?_assocSet, if_pos rfl]
  case name =>
    have hWord : ∀ c ∈ "wireguard-".toList, isSpace c = false := noSpace_ofList rfl
    exact isName_or lang _ ⟨label_numbered lang hWord first, append_ne_empty (by decide)⟩
  case mtu =>
    exact (mtuOf_ok hMtu).imp
      (fun h => (getD_of_get? (by simp [Json.get?_merge, Json.get?_cons])).trans h)
      fun ⟨n, h⟩ => ⟨n, (getD_of_get? (by simp [Json.get?_merge, Json.get?_cons])).trans h⟩
  case port | dns | allowed | keepalive =>
    simp only [Json.get?_merge, Json.get?_cons, String.reduceEq, if_false, if_true, Option.some_or]
  case interface =>
    simp only [Json.get?_merge, Json.get?_cons, if_true, Option.some_or]
    rfl

/-- A row of which this is remembered. -/
structure Reads (lang : Lang) (row : Settings) (first : Seen) : Prop where
  listens   : Listens row first.tag first.port
  name      : IsName lang first.tag
  interface : Json.get? row "interface" = some (.str first.interface)
  subnet    : Json.get? row "subnet" = some (.str first.network)
  network   : first.network ≠ "" ∧ lang.network first.network = .ok first.network

/-- A text is not replaced by a default, unless it is empty as well. -/
theorem textOr_str {d : Settings} {key text default : String}
    (h : Json.get? d key = some (.str text)) (hEmpty : text = "" → default = "") :
    lang.textOr d key default = text := by
  rw [Lang.textOr, getD_of_get? h, Json.or]
  split
  · rfl
  · rename_i hFalsy
    rw [Json.truthy, bne_iff_ne, ne_eq, not_not] at hFalsy
    rw [hFalsy, hEmpty hFalsy]
    rfl

theorem intOr_num {d : Settings} {key : String} {n default : Int}
    (h : Json.get? d key = some (.num n)) (hZero : n = 0 → default = 0) :
    intOr d key default = .ok n := by
  rw [intOr, getD_of_get? h, Json.or]
  split
  · rfl
  · rename_i hFalsy
    rw [Json.truthy, bne_iff_ne, ne_eq, not_not] at hFalsy
    rw [hFalsy, hZero hFalsy]
    rfl

theorem ne_empty_of_safe {name : String} (h : safeInterface name = true) : name ≠ "" := by
  rintro rfl
  exact absurd h (by decide)

theorem interface_ne {seen : List Seen} {first : Seen} (h : Admits lang seen first) :
    first.interface ≠ "" := ne_empty_of_safe h.safe

theorem port_ne {seen : List Seen} {first : Seen} (h : Admits lang seen first) :
    first.port ≠ 0 := by
  have hRanged := h.ranged
  omega

/-- A normalised row is stored with what is remembered of it. -/
theorem reads_checked {seen : List Seen} {row : Settings} {checked : Seen × Settings}
    (hAgain : ∀ subnet net, lang.network subnet = .ok net → net ≠ "" ∧ lang.network net = .ok net)
    (hSound : Sound lang row) (h : validateListener lang seen row = .ok checked) :
    Sound lang checked.2 ∧ Reads lang checked.2 checked.1 ∧ Admits lang seen checked.1 := by
  obtain ⟨hPasses, hRow⟩ := validateListener_ok_iff.mp h
  obtain ⟨⟨tag, port, hListens, hName⟩, ⟨interface, hInterface⟩, hDns, hMtu, hAllowed, hKeepalive⟩ :=
    hSound
  -- the check writes the network of the row and nothing else
  have hGet : ∀ {key}, "subnet" ≠ key → Json.get? checked.2 key = Json.get? row key := by
    intro key hKey
    rw [hRow, Json.get?_assocSet, if_neg hKey]
  -- what is remembered of the row is what the row says
  have hTag : checked.1.tag = tag := by
    rw [hPasses.tag, ZagrosNode.WireGuard.labelOf, getD_of_get? hListens.1, hName.1]
  have hPort : checked.1.port = port :=
    Except.ok.inj (hPasses.port.symm.trans (intOr_num hListens.2 fun _ => rfl))
  have hDevice : checked.1.interface = interface :=
    hPasses.interface.trans (textOr_str hInterface fun _ => rfl)
  refine ⟨⟨⟨tag, port, ⟨?_, ?_⟩, hName⟩, ⟨interface, ?_⟩, ?_, ?_, ?_, ?_⟩, ⟨⟨?_, ?_⟩, ?_, ?_, ?_, ?_⟩,
    hPasses.admits⟩
  · rw [hGet (by decide), hListens.1]
  · rw [hGet (by decide), hListens.2]
  · rw [hGet (by decide), hInterface]
  · rw [hGet (by decide)]
    exact hDns
  · rw [Json.getD_congr (hGet (by decide))]
    exact hMtu
  · rw [hGet (by decide)]
    exact hAllowed
  · rw [hGet (by decide)]
    exact hKeepalive
  · rw [hGet (by decide), hListens.1, hTag]
  · rw [hGet (by decide), hListens.2, hPort]
  · rw [hTag]
    exact hName
  · rw [hGet (by decide), hInterface, hDevice]
  · rw [hRow, Json.get?_assocSet, if_pos rfl]
  · exact hAgain _ _ hPasses.network

theorem listOr_list {d : Settings} {key : String} {xs : List Json}
    (h : Json.getD d key = .list xs) (default : List Json) :
    ∃ found, listOr d key default = .ok found := by
  rw [listOr, h, Json.or]
  split
  · exact ⟨xs, rfl⟩
  · exact ⟨default, rfl⟩

theorem fromFlat_mtu {s template : Settings} (h : listenerFromFlat lang s = .ok template) :
    Json.getD template "mtu" = (Json.getD s "mtu").or .null := by
  unfold listenerFromFlat at h
  simp only [bind_ok_iff] at h
  obtain ⟨port, -, dns, -, allowed, -, seconds, -, hEq⟩ := h
  rw [← Except.ok.inj hEq]
  rfl

/-- A size that was read is read again. -/
theorem mtuOf_again {v : Json} (h : v = .null ∨ ∃ mtu, v = .num mtu) :
    ∃ mtu, mtuOf v = .ok mtu := by
  rcases h with rfl | ⟨mtu, rfl⟩
  · exact ⟨.null, rfl⟩
  · exact ⟨.num mtu, rfl⟩

/-- Normalised again, a row still has what is remembered of it. -/
theorem normalize_reads {s row template : Settings} {index : Nat} {seen : List Seen} {first : Seen}
    (hFlat : listenerFromFlat lang s = .ok template)
    (hMtu : Json.getD s "mtu" = .null ∨ ∃ mtu, Json.getD s "mtu" = .num mtu)
    (hSound : Sound lang row) (hReads : Reads lang row first) (hAdmits : Admits lang seen first) :
    ∃ again, normalizeListener lang s (.dict row) index = .ok again ∧ Reads lang again first := by
  obtain ⟨-, -, ⟨dns, hDns⟩, hRowMtu, ⟨allowed, hAllowed⟩, seconds, hSeconds⟩ := hSound
  obtain ⟨⟨hTag, hPort⟩, hName, hInterface, hSubnet, hNetwork⟩ := hReads
  have hPortNe := port_ne hAdmits
  obtain ⟨out, hOut⟩ : ∃ out, copyKeys listenerKeys row
      (assocSet "tag" (.str first.tag) template) = out := ⟨_, rfl⟩
  -- the fields of the row stand over those of the template
  have hCopied : ∀ {key v}, key ∈ listenerKeys → Json.get? row key = some v → v ≠ .null →
      Json.getD out key = v :=
    fun hKey h hNull => hOut ▸ getD_copied hKey h hNull _
  have hFirst : ((Json.getD row "port").or (Json.getD template "port")).int = .ok first.port := by
    rw [getD_of_get? hPort, Json.or, if_pos (by rw [Json.truthy, bne_iff_ne]; exact hPortNe)]
    rfl
  have hTagOut : (if lang.label (Json.getD row "tag") = "" then s!"wireguard-{first.port}"
      else lang.label (Json.getD row "tag")) = first.tag := by
    rw [getD_of_get? hTag]
    exact hName.choose
  have hPortOut : (Json.getD out "port").int = .ok first.port := by
    rw [hCopied (by decide) hPort Json.noConfusion]
    rfl
  have hMtuOut : Json.getD out "mtu" = .null ∨ ∃ mtu, Json.getD out "mtu" = .num mtu := by
    rcases hRowMtu with hNull | ⟨mtu, hNum⟩
    · -- the template has what the flat settings have
      rw [← hOut, Json.getD_congr (get?_copyKeys_of_null hNull _),
        Json.getD_assocSet_of_ne (by decide), fromFlat_mtu hFlat, Json.or]
      split
      · exact hMtu
      · exact Or.inl rfl
    · have hNe : Json.getD row "mtu" ≠ .null := by
        rw [hNum]
        exact Json.noConfusion
      exact Or.inr ⟨mtu, by rw [← hOut, getD_of_get? (get?_copyKeys (by decide) hNe _), hNum]⟩
  -- every conversion succeeds, since it has succeeded before
  obtain ⟨mtu, hMtuOk⟩ := mtuOf_again hMtuOut
  obtain ⟨dns', hDnsOk⟩ := listOr_list (hCopied (by decide) hDns Json.noConfusion) []
  obtain ⟨allowed', hAllowedOk⟩ :=
    listOr_list (hCopied (by decide) hAllowed Json.noConfusion) everywhere
  obtain ⟨seconds', hSecondsOk⟩ : ∃ n, intOr out "peer_keepalive" 25 = .ok n := by
    rw [intOr, hCopied (by decide) hSeconds Json.noConfusion, Json.or]
    split
    · exact ⟨seconds, rfl⟩
    · exact ⟨25, rfl⟩
  have hDevice : lang.str (interfaceOf lang s row out index first.tag) = first.interface := by
    have hTruthy : (Json.getD row "interface").truthy = true := by
      rw [getD_of_get? hInterface, Json.truthy, bne_iff_ne]
      exact interface_ne hAdmits
    rw [interfaceOf, if_pos hTruthy, hCopied (by decide) hInterface Json.noConfusion]
    rfl
  have hSubnetOut : lang.textOr out "subnet" defaultSubnet = first.network := by
    rw [Lang.textOr, hCopied (by decide) hSubnet Json.noConfusion, Json.or,
      if_pos (by rw [Json.truthy, bne_iff_ne]; exact hNetwork.1)]
    rfl
  -- the result has the fields that are remembered, as they were
  unfold normalizeListener
  simp only [hFlat, bind, Except.bind, hFirst, hTagOut, hOut, hPortOut, hDnsOk, hMtuOk, hAllowedOk,
    hSecondsOk, hDevice, hSubnetOut]
  refine ⟨_, rfl, ⟨?_, ?_⟩, hName, ?_, ?_, hNetwork⟩
  · have hKey : "tag" ∉ listenerKeys := by decide
    simp only [Json.get?_merge, Json.get?_cons, Json.get?_nil, String.reduceEq, if_false,
      Option.none_or]
    rw [← hOut, get?_copyKeys_of_not_mem hKey, Json.get?_assocSet, if_pos rfl]
  all_goals
    simp only [Json.get?_merge, Json.get?_cons, String.reduceEq, if_false, if_true, Option.some_or]

/-- Rows that are let through one after the other. -/
def Admitted (lang : Lang) : List Seen → List Seen → Prop
  | _, []            => True
  | seen, first :: rest => Admits lang seen first ∧ Admitted lang (seen ++ [first]) rest

theorem validateRows_cons_ok_iff {seen : List Seen} {row : Settings} {rest checked : List Settings} :
    validateRows lang seen (row :: rest) = .ok checked ↔
      ∃ first others, validateListener lang seen row = .ok first ∧
        validateRows lang (seen ++ [first.1]) rest = .ok others ∧ checked = first.2 :: others := by
  rw [validateRows]
  simp only [bind_ok_iff]
  refine exists_congr fun first => ?_
  constructor
  · rintro ⟨hFirst, others, hRest, hEq⟩
    exact ⟨others, hFirst, hRest, (Except.ok.inj hEq).symm⟩
  · rintro ⟨others, hFirst, hRest, rfl⟩
    exact ⟨hFirst, others, hRest, rfl⟩

/-- A row of an accepted document. -/
structure Accepted (lang : Lang) (row : Settings) (first : Seen) : Prop where
  sound  : Sound lang row
  reads  : Reads lang row first
  admits : ∃ seen, Admits lang seen first

theorem accepted_validated {seen : List Seen} {rows checked : List Settings}
    (hAgain : ∀ subnet net, lang.network subnet = .ok net → net ≠ "" ∧ lang.network net = .ok net)
    (hSound : ∀ row ∈ rows, Sound lang row) (h : validateRows lang seen rows = .ok checked) :
    ∃ firsts, List.Forall₂ (Accepted lang) checked firsts ∧ Admitted lang seen firsts := by
  induction rows generalizing seen checked with
  | nil =>
    obtain rfl := Except.ok.inj h
    exact ⟨[], List.Forall₂.nil, trivial⟩
  | cons row rest ih =>
    obtain ⟨first, others, hFirst, hRest, rfl⟩ := validateRows_cons_ok_iff.mp h
    obtain ⟨hRow, hReads, hAdmits⟩ := reads_checked hAgain (hSound row List.mem_cons_self) hFirst
    obtain ⟨firsts, hPairs, hAdmitted⟩ :=
      ih (fun row' hMem => hSound row' (List.mem_cons_of_mem row hMem)) hRest
    exact ⟨first.1 :: firsts, List.Forall₂.cons ⟨hRow, hReads, seen, hAdmits⟩ hPairs, hAdmits,
      hAdmitted⟩

theorem passes_of_reads {seen : List Seen} {row : Settings} {first : Seen}
    (h : Reads lang row first) (hAdmits : Admits lang seen first) : Passes lang seen row first where
  tag       := by
    rw [ZagrosNode.WireGuard.labelOf, getD_of_get? h.listens.1, h.name.1]
  interface := (textOr_str h.interface fun _ => rfl).symm
  port      := intOr_num h.listens.2 fun _ => rfl
  network   := by
    rw [textOr_str h.subnet fun _ => rfl]
    exact h.network.2
  admits    := hAdmits

/-- Rows of which the same is remembered are let through again. -/
theorem validate_admitted {seen firsts : List Seen} {rows : List Settings}
    (hReads : List.Forall₂ (Reads lang) rows firsts) (h : Admitted lang seen firsts) :
    ∃ checked, validateRows lang seen rows = .ok checked ∧
      List.Forall₂ (fun row (first : Seen) => Listens row first.tag first.port) checked firsts := by
  induction hReads generalizing seen with
  | nil => exact ⟨[], rfl, List.Forall₂.nil⟩
  | cons hHead _ ih =>
    rename_i row first _ _ _
    obtain ⟨others, hOthers, hListens⟩ := ih h.2
    refine ⟨_, validateRows_cons_ok_iff.mpr ⟨(first, assocSet "subnet" (.str first.network) row),
      others, validateListener_ok_iff.mpr ⟨passes_of_reads hHead h.1, rfl⟩, hOthers, rfl⟩,
      List.Forall₂.cons ⟨?_, ?_⟩ hListens⟩
    · rw [Json.get?_assocSet, if_neg (by decide), hHead.listens.1]
    · rw [Json.get?_assocSet, if_neg (by decide), hHead.listens.2]

theorem sound_parseInbound {d : ZagrosNode.WireGuard.Desired} {template row : Settings}
    {used : List String} {index : Nat} {v : Json}
    (h : parseInbound lang d template used index v = .ok row) : Sound lang row := by
  unfold parseInbound at h
  split at h
  · dsimp only at h
    split at h
    · cases h
    · split at h
      · simp only [bind_ok_iff, py_ok_iff] at h
        obtain ⟨port, -, entry, -, hRow⟩ := h
        exact sound_normalize hRow
      · split at h
        · cases h
        · cases h
  · cases h

theorem sound_parseInbounds {d : ZagrosNode.WireGuard.Desired} {template : Settings}
    {used : List String} {index : Nat} {inbounds : List Json} {rows : List Settings}
    (h : parseInbounds lang d template used index inbounds = .ok rows) :
    ∀ row ∈ rows, Sound lang row := by
  induction inbounds generalizing used index rows with
  | nil =>
    obtain rfl := Except.ok.inj h
    exact fun row hMem => absurd hMem List.not_mem_nil
  | cons v rest ih =>
    rw [parseInbounds] at h
    simp only [bind_ok_iff] at h
    obtain ⟨row, hRow, others, hOthers, hEq⟩ := h
    rw [← Except.ok.inj hEq, List.forall_mem_cons]
    exact ⟨sound_parseInbound hRow, ih hOthers⟩

/-- What an accepted document comes to. -/
theorem parse_accepted {d : ZagrosNode.WireGuard.Desired} {document : Settings} {rows : List Settings}
    (hAgain : ∀ subnet net, lang.network subnet = .ok net → net ≠ "" ∧ lang.network net = .ok net)
    (h : parseStudioDocument lang d document = .ok rows) :
    rows ≠ [] ∧ ∃ firsts, List.Forall₂ (Accepted lang) rows firsts ∧ Admitted lang [] firsts := by
  obtain ⟨inbounds, -, hNe, hLength, -⟩ := ZagrosNode.WireGuard.parseStudioDocument_ok h
  refine ⟨fun hNil => hNe (List.length_eq_zero_iff.mp (hLength ▸ hNil ▸ rfl)), ?_⟩
  unfold parseStudioDocument at h
  obtain ⟨found, -, h⟩ := bind_ok_iff.mp h
  split at h
  · cases h
  · simp only [bind_ok_iff] at h
    obtain ⟨template, -, parsed, hParsed, hRows⟩ := h
    exact accepted_validated hAgain (sound_parseInbounds hParsed) hRows

section Stored

variable {s : Settings} {rows : List Settings} {firsts : List Seen}

theorem stored_accepted {template : Settings} (hNe : rows ≠ [])
    (hFlat : listenerFromFlat lang s = .ok template)
    (hMtu : Json.getD s "mtu" = .null ∨ ∃ mtu, Json.getD s "mtu" = .num mtu)
    (hRows : List.Forall₂ (Accepted lang) rows firsts) (hAdmitted : Admitted lang [] firsts)
    (hStored : Json.getD s "listeners" = rowsOf rows) :
    ∃ again, storedListeners lang s = .ok again ∧
      List.Forall₂ (fun row (first : Seen) => Listens row first.tag first.port) again firsts := by
  have hPairs : List.Forall₂ (fun (v : Json × Nat) first => ∃ row, v.1 = .dict row ∧
      Accepted lang row first) (rows.map Json.dict).zipIdx firsts := by
    have hRead : List.Forall₂ (fun v first => ∃ row, v = Json.dict row ∧ Accepted lang row first)
        ((rows.map Json.dict).zipIdx.map Prod.fst) firsts := by
      rw [List.zipIdx_map_fst, List.forall₂_map_left_iff]
      exact hRows.imp fun row _ h => ⟨row, rfl, h⟩
    exact List.forall₂_map_left_iff.mp hRead
  obtain ⟨found, hFound, hReads⟩ := exists_mapM_forall₂
    (f := fun v : Json × Nat => normalizeListener lang s v.1 v.2) (S := Reads lang)
    (fun v first ⟨row, hEq, h⟩ => by
      obtain ⟨seen, hAdmits⟩ := h.admits
      rw [hEq]
      exact normalize_reads hFlat hMtu h.sound h.reads hAdmits) hPairs
  obtain ⟨again, hAgain, hListens⟩ := validate_admitted hReads hAdmitted
  refine ⟨again, ?_, hListens⟩
  unfold storedListeners
  rw [hStored, if_pos (rowsOf_truthy hNe), listOf_rows]
  show py ((rows.map Json.dict).zipIdx.mapM fun v => normalizeListener lang s v.1 v.2) >>= _ = _
  rw [hFound]
  exact hAgain

theorem fromFlat_mirrored {row : Settings} (h : Sound lang row)
    (hFlat : ∀ key ∈ listenerKeys, Json.getD s key = Json.getD row key) :
    ∃ template, listenerFromFlat lang s = .ok template := by
  obtain ⟨⟨_, port, ⟨-, hPort⟩, -⟩, -, ⟨dns, hDns⟩, -, ⟨allowed, hAllowed⟩, seconds, hSeconds⟩ := h
  have hInt : ∀ {key n} (default : Int), key ∈ listenerKeys → Json.get? row key = some (.num n) →
      ∃ found, intOr s key default = .ok found := by
    intro key n default hKey hNum
    rw [intOr, hFlat key hKey, getD_of_get? hNum, Json.or]
    split
    · exact ⟨n, rfl⟩
    · exact ⟨default, rfl⟩
  have hList : ∀ {key xs} (default : List Json), key ∈ listenerKeys →
      Json.get? row key = some (.list xs) → ∃ found, listOr s key default = .ok found :=
    fun default hKey hXs => listOr_list ((hFlat _ hKey).trans (getD_of_get? hXs)) default
  obtain ⟨port', hPortOk⟩ := hInt 51820 (by decide) hPort
  obtain ⟨dns', hDnsOk⟩ := hList [.str "1.1.1.1"] (by decide) hDns
  obtain ⟨allowed', hAllowedOk⟩ := hList everywhere (by decide) hAllowed
  obtain ⟨seconds', hSecondsOk⟩ := hInt 25 (by decide) hSeconds
  exact ⟨_, bind_ok_iff.mpr ⟨port', hPortOk, bind_ok_iff.mpr ⟨dns', hDnsOk,
    bind_ok_iff.mpr ⟨allowed', hAllowedOk, bind_ok_iff.mpr ⟨seconds', hSecondsOk, rfl⟩⟩⟩⟩⟩

end Stored

/-- The rows a driver finds: the flat settings have the port of an only row. -/
theorem listeners_listens {s : Settings} {rows : List Settings} {ends : List (String × Int)}
    (hNe : rows ≠ []) (hStored : Json.getD s "listeners" = rowsOf rows)
    (hRows : List.Forall₂ (fun row e => Listens row e.1 e.2) rows ends)
    (hFirst : ∀ e ∈ ends.head?, Json.get? s "port" = some (.num e.2)) :
    ∃ listed, listeners s = .ok listed ∧
      List.Forall₂ (fun row e => Listens row e.1 e.2) listed ends := by
  have hList : listOr s "listeners" [] = .ok (rows.map .dict) := by
    rw [listOr, hStored, Json.or, if_pos (rowsOf_truthy hNe), listOf_rows]
  have hRead : listeners s = .ok (ZagrosNode.WireGuard.Desired.listeners ⟨rows, s⟩) := by
    unfold listeners ZagrosNode.WireGuard.Desired.listeners
    rw [hList]
    show ((rows.map Json.dict).mapM dictOf >>= _) = _
    rw [mapM_dictOf]
    rcases rows with _ | ⟨row, _ | ⟨next, rest⟩⟩ <;> rfl
  refine ⟨_, hRead, ?_⟩
  unfold ZagrosNode.WireGuard.Desired.listeners
  split
  · rename_i row hRow
    dsimp only at hRow
    subst hRow
    obtain ⟨e, others, hListens, hNil, rfl⟩ := List.forall₂_cons_left_iff.mp hRows
    obtain rfl := List.forall₂_nil_left_iff.mp hNil
    have hPort := hFirst e (by rfl)
    rw [ZagrosNode.WireGuard.overlay_eq]
    refine List.Forall₂.cons ⟨?_, ?_⟩ List.Forall₂.nil
    · rw [ZagrosNode.WireGuard.get?_overlayKeys_of_not_mem (by decide), hListens.1]
    · exact ZagrosNode.WireGuard.get?_overlayKeys (by decide) hPort row
  · exact hRows

end WireGuard

end ZagrosNode.Drivers
