import P2PNetcat.Protocol.RouteRecord

/-!
# What a verifier takes

`DecodePayload` takes exactly the payloads of normal records, and `Verify`
exactly the envelopes of such records that their own key has signed.
-/

namespace P2PNetcat.RouteRecord
open List ByteCodec Fallible GoTime
open P2PNetcat.Pairing (PeerID Libraries orError unmarshalField orError_ok_iff
  unmarshalField_ok_iff)

variable {L : Libraries}

/-- A list of addresses as it is written: not too many, none of them nil, each text once and in
order. -/
structure Listed (L : Libraries) (addresses : List L.Multiaddr) : Prop where
  count : addresses.length ≤ maxAddresses
  present : ∀ a ∈ addresses, L.isNil a = false
  distinct : (addresses.map L.addrString).Nodup
  ordered : (addresses.map L.addrString).Pairwise (· ≤ ·)

namespace Record

structure Normal (r : Record L) : Prop where
  version : r.version = recordVersion
  peerID : r.peerID ≠ []
  times : r.issuedAt < r.expiresAt
  nonempty : r.services ≠ []
  count : r.services.length ≤ maxServices
  nonzero : ∀ service ∈ r.services, service ≠ 0
  distinct : r.services.Nodup
  ordered : r.services.Pairwise (· ≤ ·)
  addresses : Listed L r.addresses
  relayReservations : Listed L r.relayReservations
  capabilities : r.capabilities &&& ~~~allCapabilities = 0

end Record

variable {services : List UInt16}

theorem uniqueServices_eq (hnonzero : ∀ service ∈ services, service ≠ 0)
    (hdistinct : services.Nodup) (hordered : services.Pairwise (· ≤ ·)) :
    uniqueServices services = services := by
  have hfilter : services.filter (fun service => service ≠ 0) = services :=
    filter_eq_self.mpr fun service h => decide_eq_true (hnonzero service h)
  rw [uniqueServices, hfilter, hdistinct.dedup, List.Pairwise.insertionSort_eq hordered]

theorem Listed.uniqueAddresses_eq {addresses : List L.Multiaddr} (h : Listed L addresses) :
    uniqueAddresses addresses = addresses := by
  have hseen : addresses.filter (fun value => !L.isNil value) = addresses := by
    refine filter_eq_self.mpr ?_
    intro a ha
    rw [h.present a ha]
    rfl
  have hfind : ∀ a ∈ addresses, addresses.reverse.find?
      (fun value => L.addrString value = L.addrString a) = some a := by
    intro a ha
    cases hresult : addresses.reverse.find?
        (fun value => L.addrString value = L.addrString a) with
    | none =>
      rw [find?_eq_none] at hresult
      exact absurd (decide_eq_true rfl) (hresult a (mem_reverse.mpr ha))
    | some b =>
      have hb := mem_reverse.mp (mem_of_find?_eq_some hresult)
      have heq : L.addrString b = L.addrString a := by simpa using find?_some hresult
      exact congrArg some (inj_on_of_nodup_map h.distinct hb ha heq)
  have hself : ∀ l : List L.Multiaddr, (∀ a ∈ l, a ∈ addresses) →
      (l.map L.addrString).filterMap (fun key => addresses.reverse.find?
        fun value => L.addrString value = key) = l := by
    intro l
    induction l with
    | nil => exact fun _ => rfl
    | cons a l ih =>
      intro hl
      obtain ⟨ha, hl⟩ := forall_mem_cons.mp hl
      rw [map_cons, filterMap_cons]
      simp only [hfind a ha, ih hl]
  rw [uniqueAddresses, hseen, h.distinct.dedup, List.Pairwise.insertionSort_eq h.ordered]
  exact hself addresses fun _ h => h

variable {r : Record L}

theorem Record.Normal.normalize (h : r.Normal) : normalize r = .ok r := by
  have hlength : r.services.length ≠ 0 := fun hnil => h.nonempty (length_eq_zero_iff.mp hnil)
  have hcount := h.count
  have haddresses := h.addresses.count
  have hrelays := h.relayReservations.count
  have htimes : ¬ r.expiresAt ≤ r.issuedAt := UInt64.not_le.mpr h.times
  rw [RouteRecord.normalize, if_neg (not_not.mpr h.version), if_neg h.peerID, if_neg htimes,
    if_neg (by omega), if_neg (by omega), if_neg (not_not.mpr h.capabilities),
    uniqueServices_eq h.nonzero h.distinct h.ordered, h.addresses.uniqueAddresses_eq,
    h.relayReservations.uniqueAddresses_eq]

theorem map_filterMap_eq {A B : Type} {f : B → Option A} {g : A → B} {keys : List B}
    (h : ∀ key ∈ keys, ∃ value, f key = some value ∧ g value = key) :
    (keys.filterMap f).map g = keys := by
  induction keys with
  | nil => rfl
  | cons key keys ih =>
    obtain ⟨⟨value, hvalue, hkey⟩, hkeys⟩ := forall_mem_cons.mp h
    rw [filterMap_cons]
    simp only [hvalue, map_cons, hkey, ih hkeys]

def distinctTexts (L : Libraries) (values : List L.Multiaddr) : List Bytes :=
  ((values.filter fun value => !L.isNil value).map L.addrString).dedup

variable {values : List L.Multiaddr}

theorem mem_distinctTexts {text : Bytes} :
    text ∈ distinctTexts L values ↔ ∃ a ∈ values, L.isNil a = false ∧ L.addrString a = text := by
  simp only [distinctTexts, mem_dedup, mem_map, mem_filter, Bool.not_eq_true',
    and_assoc]

theorem length_distinctTexts_le (values : List L.Multiaddr) :
    (distinctTexts L values).length ≤ values.length := by
  have hdedup := (dedup_sublist
    ((values.filter fun value => !L.isNil value).map L.addrString)).length_le
  rw [length_map] at hdedup
  exact Nat.le_trans hdedup (length_filter_le ..)

theorem map_uniqueAddresses (values : List L.Multiaddr) :
    (uniqueAddresses values).map L.addrString =
      (distinctTexts L values).insertionSort (· ≤ ·) := by
  refine map_filterMap_eq fun key hkey => ?_
  have hmem := mem_dedup.mp ((perm_insertionSort ..).subset hkey)
  obtain ⟨value, hvalue, rfl⟩ := mem_map.mp hmem
  cases hresult : (values.filter fun value => !L.isNil value).reverse.find?
      (fun other => L.addrString other = L.addrString value) with
  | none =>
    rw [find?_eq_none] at hresult
    exact absurd (decide_eq_true rfl) (hresult value (mem_reverse.mpr hvalue))
  | some other => exact ⟨other, rfl, by simpa using find?_some hresult⟩

theorem mem_of_mem_uniqueAddresses {a : L.Multiaddr}
    (h : a ∈ uniqueAddresses values) : a ∈ values ∧ L.isNil a = false := by
  obtain ⟨key, -, hfind⟩ := mem_filterMap.mp h
  have hmem := mem_filter.mp (mem_reverse.mp (mem_of_find?_eq_some hfind))
  exact ⟨hmem.1, by simpa using hmem.2⟩

theorem listed_uniqueAddresses (hcount : values.length ≤ maxAddresses) :
    Listed L (uniqueAddresses values) where
  count := by
    have hlength := congrArg length (map_uniqueAddresses values)
    rw [length_map, length_insertionSort] at hlength
    have := length_distinctTexts_le values
    omega
  present := fun a ha => (mem_of_mem_uniqueAddresses ha).2
  distinct := by
    rw [map_uniqueAddresses]
    exact (perm_insertionSort ..).nodup_iff.mpr (nodup_dedup _)
  ordered := by
    rw [map_uniqueAddresses]
    exact pairwise_insertionSort ..

theorem uniqueServices_perm (services : List UInt16) :
    (uniqueServices services).Perm (services.filter fun service => service ≠ 0).dedup :=
  perm_insertionSort ..

theorem mem_uniqueServices {service : UInt16} :
    service ∈ uniqueServices services ↔ service ∈ services ∧ service ≠ 0 := by
  rw [(uniqueServices_perm services).mem_iff, mem_dedup, mem_filter, decide_eq_true_eq]

theorem length_uniqueServices_le (services : List UInt16) :
    (uniqueServices services).length ≤ services.length := by
  rw [(uniqueServices_perm services).length_eq]
  exact Nat.le_trans (dedup_sublist _).length_le (length_filter_le ..)

theorem normal_of_normalize {r s : Record L} (hnonzero : ∃ service ∈ r.services, service ≠ 0)
    (h : normalize r = .ok s) : s.Normal := by
  simp only [normalize, ite_error_eq_ok] at h
  obtain ⟨hversion, hpeer, htimes, hservices, haddresses, hcapabilities, heq⟩ := h
  cases heq
  obtain ⟨service, hservice⟩ := hnonzero
  exact
    { version := not_not.mp hversion
      peerID := hpeer
      times := UInt64.not_le.mp htimes
      nonempty := ne_nil_of_mem (mem_uniqueServices.mpr hservice)
      count := Nat.le_trans (length_uniqueServices_le r.services) (by omega)
      nonzero := fun other hmem => (mem_uniqueServices.mp hmem).2
      distinct := (uniqueServices_perm r.services).nodup_iff.mpr (nodup_dedup _)
      ordered := pairwise_insertionSort ..
      addresses := listed_uniqueAddresses (by omega)
      relayReservations := listed_uniqueAddresses (by omega)
      capabilities := not_not.mp hcapabilities }

def Record.tidy (r : Record L) : Record L :=
  { r with
    services := uniqueServices r.services
    addresses := uniqueAddresses r.addresses
    relayReservations := uniqueAddresses r.relayReservations }

theorem normalize_ok {r s : Record L} (h : normalize r = .ok s) :
    r.services ≠ [] ∧ r.issuedAt < r.expiresAt ∧ s = r.tidy := by
  simp only [normalize, ite_error_eq_ok] at h
  obtain ⟨-, -, htimes, hservices, -, -, heq⟩ := h
  refine ⟨fun hnil => hservices (.inl (length_eq_zero_iff.mpr hnil)), UInt64.not_le.mp htimes, ?_⟩
  exact (Except.ok.inj heq).symm

namespace Record
variable {r : Record L}

/-- What a verifier takes for a record: it is normal, its PeerId and its addresses have a text that
can be read back, and its payload is not too long. -/
structure Documented (r : Record L) : Prop where
  normal : r.Normal
  peerID : L.decodeID (L.idString r.peerID) = .ok r.peerID
  valid : ∀ a ∈ r.addresses ++ r.relayReservations, Utf8.valid (L.addrString a) = true
  size : r.payload.length ≤ maxPayloadBytes

theorem forall_fields {p : Nat × Cbor.Item → Prop}
    (huint : ∀ key, key < 9 → ∀ n : UInt64, p (key, .uint n.toNat))
    (hpeer : p (1, .text (L.idString r.peerID)))
    (hservices : p (5, .array (r.services.map fun service => .uint service.toNat)))
    (haddresses : p (6, addressItem r.addresses)) (hrelays : p (7, addressItem r.relayReservations)) :
    ∀ field ∈ r.fields, p field := by
  intro field hmem
  simp only [fields, mem_cons, not_mem_nil, or_false] at hmem
  rcases hmem with rfl | rfl | rfl | rfl | rfl | rfl | rfl | rfl | rfl
  · exact huint 0 (by decide) _
  · exact hpeer
  · exact huint 2 (by decide) _
  · exact huint 3 (by decide) _
  · exact huint 4 (by decide) _
  · exact hservices
  · exact haddresses
  · exact hrelays
  · exact huint 8 (by decide) _

theorem bounded_addressItem {addresses : List L.Multiaddr}
    (h : (Cbor.encode (addressItem addresses)).length < 2 ^ 64)
    (hcount : addresses.length < 2 ^ 64) : Cbor.Bounded (addressItem addresses) := by
  rw [addressItem] at h ⊢
  refine ⟨by rwa [length_map], Cbor.boundedItems_iff.mpr ?_⟩
  intro item hmem
  have hle := Cbor.length_item_le hmem
  obtain ⟨a, -, rfl⟩ := mem_map.mp hmem
  simp only [Cbor.encode, length_append] at h hle
  have hlt : (L.addrString a).length < 2 ^ 64 := by omega
  exact hlt

theorem Normal.bounded_item (h : r.Normal)
    (hsize : r.payload.length ≤ maxPayloadBytes) : Cbor.Bounded r.item := by
  have hvalue : ∀ key value, (key, value) ∈ r.fields → (Cbor.encode value).length < 2 ^ 64 := by
    intro key value hmem
    have hle : (Cbor.encode value).length ≤ r.payload.length := Cbor.length_value_le hmem
    rw [maxPayloadBytes] at hsize
    omega
  have hcount := h.count
  have haddresses := h.addresses.count
  have hrelays := h.relayReservations.count
  rw [maxServices] at hcount
  rw [maxAddresses] at haddresses hrelays
  constructor
  · rw [Cbor.length_uintPairs]
    exact (show 9 < 2 ^ 64 by decide)
  · refine Cbor.boundedPairs_uint (forall_fields ?_ ?_ ?_ ?_ ?_)
    · intro key hkey n
      exact ⟨by omega, n.toNat_lt⟩
    · have hencoded := hvalue 1 (.text (L.idString r.peerID)) (by simp [fields])
      simp only [Cbor.encode, length_append] at hencoded
      have hlt : (L.idString r.peerID).length < 2 ^ 64 := by omega
      exact ⟨by omega, hlt⟩
    · refine ⟨by omega, by rw [length_map]; omega, Cbor.boundedItems_iff.mpr ?_⟩
      intro item hmem
      obtain ⟨service, -, rfl⟩ := mem_map.mp hmem
      exact Nat.lt_trans service.toNat_lt (by decide)
    · exact ⟨by omega, bounded_addressItem (hvalue 6 _ (by simp [fields])) (by omega)⟩
    · exact ⟨by omega, bounded_addressItem (hvalue 7 _ (by simp [fields])) (by omega)⟩

theorem textsValid_item : Cbor.textsValid r.item =
    (Utf8.valid (L.idString r.peerID) &&
      (r.addresses ++ r.relayReservations).all fun a => Utf8.valid (L.addrString a)) := by
  have haddresses : ∀ addresses : List L.Multiaddr, Cbor.textsValid (addressItem addresses) =
      addresses.all fun a => Utf8.valid (L.addrString a) := by
    intro addresses
    rw [addressItem, Cbor.textsValid, Cbor.itemsValid_eq_all, all_map]
    rfl
  have hservices :
      Cbor.itemsValid (r.services.map fun service => .uint service.toNat) = true := by
    rw [Cbor.itemsValid_eq_all, all_map, all_eq_true]
    exact fun _ _ => rfl
  rw [item, Cbor.textsValid, Cbor.pairsValid_uint, fields]
  simp only [all_cons, all_nil, haddresses, hservices, Cbor.textsValid, Bool.true_and,
    Bool.and_true, all_append]

theorem within_item (h : r.Normal) :
    Cbor.within limits limits.maxNestedLevels r.item = true := by
  have haddresses : ∀ {addresses : List L.Multiaddr}, addresses.length ≤ maxAddresses →
      Cbor.within limits 15 (addressItem addresses) = true := by
    intro addresses hcount
    rw [addressItem, Cbor.within, Bool.and_eq_true, decide_eq_true_eq, length_map]
    refine ⟨Nat.le_trans hcount (by decide), ?_⟩
    rw [Cbor.withinItems_eq_all, all_map, all_eq_true]
    exact fun _ _ => rfl
  have hservices : Cbor.within limits 15
      (.array (r.services.map fun service => .uint service.toNat)) = true := by
    rw [Cbor.within, Bool.and_eq_true, decide_eq_true_eq, length_map]
    refine ⟨Nat.le_trans h.count (by decide), ?_⟩
    rw [Cbor.withinItems_eq_all, all_map, all_eq_true]
    exact fun _ _ => rfl
  have hpairs : Cbor.withinPairs limits 15 (Cbor.uintPairs r.fields) = true :=
    Cbor.withinPairs_uint (forall_fields (fun _ _ _ => rfl) rfl hservices
      (haddresses h.addresses.count) (haddresses h.relayReservations.count))
  have hlevels : limits.maxNestedLevels = 15 + 1 := rfl
  rw [item, hlevels, Cbor.within, hpairs, Bool.and_true, decide_eq_true_eq, Cbor.length_uintPairs]
  exact (show 9 ≤ 32 by decide)

end Record

theorem nonzero_of_parseServices {ns : List Nat}
    (h : parseServices ns = .ok services) : ∀ service ∈ services, service ≠ 0 := by
  induction ns generalizing services with
  | nil =>
    cases h
    exact fun _ h => absurd h not_mem_nil
  | cons n ns ih =>
    obtain ⟨hrange, h⟩ := ite_error_eq_ok.mp h
    obtain ⟨rest, hrest, heq⟩ := bind_eq_ok.mp h
    cases heq
    refine forall_mem_cons.mpr ⟨?_, ih hrest⟩
    intro hzero
    have hnat := congrArg UInt16.toNat hzero
    rw [UInt16.toNat_zero] at hnat
    have hmod : n.toUInt16.toNat = n % 2 ^ 16 := rfl
    omega

theorem parseServices_toNat (h : ∀ service ∈ services, service ≠ 0) :
    parseServices (services.map UInt16.toNat) = .ok services := by
  induction services with
  | nil => rfl
  | cons service services ih =>
    obtain ⟨hservice, hservices⟩ := forall_mem_cons.mp h
    have hlt := service.toNat_lt
    have hne : service.toNat ≠ 0 := fun heq => hservice (UInt16.toNat_inj.mp heq)
    have hback : service.toNat.toUInt16 = service := UInt16.ofNat_toNat
    rw [map_cons, parseServices, if_neg (by omega), ih hservices, hback]
    rfl

theorem decodeMap_ok {input : Bytes} {allowed : Nat} {fields : List (Nat × Cbor.Item)}
    (h : decodeMap L input allowed = .ok fields) :
    ∃ item, Cbor.decode input = some item ∧ Cbor.asUintMap item = some fields ∧
      (∀ field ∈ fields, field.1 < allowed) ∧ fields.length = allowed := by
  rw [decodeMap] at h
  split at h
  · cases h
  rename_i found hfound
  obtain ⟨item, hitem, hmap⟩ := Option.bind_eq_some_iff.mp hfound
  rw [Cbor.unmarshal] at hitem
  split at hitem
  next decoded hdecoded =>
    split at hitem
    · cases hitem
      split at h
      · cases h
      rename_i hknown
      obtain ⟨hlength, heq⟩ := ite_error_eq_ok.mp h
      cases heq
      refine ⟨item, hdecoded, hmap, ?_, not_not.mp hlength⟩
      intro field hmem
      have hle := find?_eq_none.mp hknown field hmem
      rw [decide_eq_true_eq] at hle
      omega
    · cases hitem
  · cases hitem

theorem decodeMap_of_decode {input : Bytes} {allowed : Nat} {fields : List (Nat × Cbor.Item)}
    (hdecode : Cbor.decode input = some (.map (Cbor.uintPairs fields)))
    (hwithin : Cbor.within limits limits.maxNestedLevels (.map (Cbor.uintPairs fields)) = true)
    (hkeys : fields.map Prod.fst = range allowed) :
    decodeMap L input allowed = .ok fields := by
  have hnodup : (fields.map Prod.fst).Nodup := hkeys ▸ nodup_range
  have hknown : fields.find? (fun field => field.1 ≥ allowed) = none := by
    rw [find?_eq_none]
    intro field hmem
    have hkey : field.1 ∈ range allowed := hkeys ▸ mem_map_of_mem hmem
    rw [decide_eq_true_eq]
    exact Nat.not_le.mpr (mem_range.mp hkey)
  have hlength : fields.length = allowed := by
    rw [← length_map Prod.fst, hkeys, length_range]
  simp only [decodeMap, Cbor.unmarshal, hdecode, if_pos hwithin, Option.bind_some,
    Cbor.asUintMap_uints fields hnodup, hknown, hlength, ne_eq, not_true_eq_false, if_false]

theorem Record.Documented.decode_payload (hL : L.Lawful) (h : r.Documented) :
    Cbor.decode r.payload = some r.item := by
  have hvalid : Cbor.textsValid r.item = true := by
    rw [Record.textsValid_item, Bool.and_eq_true, all_eq_true]
    exact ⟨hL.idString_valid h.peerID, h.valid⟩
  rw [Record.payload, Cbor.decode_encode (h.normal.bounded_item h.size), if_pos hvalid]

theorem decodeField_ok {A : Type} {as : Cbor.Item → Option A} {fields : List (Nat × Cbor.Item)}
    {key : Nat} {item : Cbor.Item} {value : A} (hlookup : fields.lookup key = some item)
    (has : as item = some value) : decodeField L as fields key = .ok value := by
  rw [decodeField, unmarshalField, hlookup]
  simp only [Option.getD_some, has, orError]

theorem decodePayload_ok_iff (hL : L.Lawful) {payload : Bytes}
    (hsize : payload.length ≤ maxPayloadBytes) :
    decodePayload L payload = .ok r ↔ payload = r.payload ∧ r.Documented := by
  constructor
  · intro h
    obtain ⟨fields, hfields, h⟩ := bind_eq_ok.mp h
    simp only [bind_eq_ok] at h
    obtain ⟨version, hversion, peerText, hpeerText, sequence, hsequence, issuedAt, hissuedAt,
      expiresAt, hexpiresAt, numbers, hnumbers, texts, htexts, relays, hrelays, capabilities,
      hcapabilities, peerID, hpeerID, services, hservices, addresses, haddresses, reservations,
      hreservations, record, hrecord, h⟩ := h
    obtain ⟨service, hservice⟩ :=
      exists_mem_of_ne_nil services (normalize_ok hrecord).1
    have hnormal := normal_of_normalize
      ⟨service, hservice, nonzero_of_parseServices hservices service hservice⟩ hrecord
    have hencode : encodePayload record = .ok record.payload := by
      rw [encodePayload, hnormal.normalize]
      rfl
    simp only [hencode] at h
    split at h
    next hsame =>
      obtain rfl := Except.ok.inj h
      obtain rfl := hsame
      -- The payload is that of the record, so the fields read are its own.
      obtain ⟨item, hdecode, hmap, -⟩ := decodeMap_ok hfields
      have hencoded := Cbor.decode_encode (hnormal.bounded_item hsize)
      rw [← Record.payload, hdecode] at hencoded
      split at hencoded
      next hvalid =>
        obtain rfl := Option.some.inj hencoded
        rw [Record.textsValid_item, Bool.and_eq_true, all_eq_true] at hvalid
        have hown : Cbor.asUintMap record.item = some record.fields :=
          Cbor.asUintMap_uints record.fields (by simp [Record.fields])
        rw [hown] at hmap
        cases hmap
        have htext : decodeField L Cbor.asText record.fields 1 = .ok (L.idString record.peerID) :=
          decodeField_ok rfl rfl
        rw [htext] at hpeerText
        cases hpeerText
        have hid : record.peerID = peerID := congrArg Record.peerID (normalize_ok hrecord).2.2
        refine ⟨rfl, hnormal, ?_, hvalid.2, hsize⟩
        rw [hpeerID, hid]
      · cases hencoded
    · cases h
  · rintro ⟨rfl, h⟩
    have hfields : decodeMap L r.payload 9 = .ok r.fields :=
      decodeMap_of_decode (h.decode_payload hL) (Record.within_item h.normal) rfl
    have htexts : ∀ addresses : List L.Multiaddr, Cbor.asList Cbor.asText
        (Record.addressItem addresses) = some (addresses.map L.addrString) := by
      have hread : ∀ a : L.Multiaddr, Cbor.asText (.text (L.addrString a)) =
          some (L.addrString a) := fun _ => rfl
      exact fun addresses => Cbor.asList_map hread addresses
    have hparse : ∀ {addresses : List L.Multiaddr}, Listed L addresses →
        parseAddresses L (addresses.map L.addrString) = .ok addresses := by
      intro addresses hlisted
      have hmap := mapM_map_eq_ok (f := L.newMultiaddr) (k := L.addrString) (g := id)
        fun a ha => hL.newMultiaddr_addrString (hlisted.present a ha)
      rwa [map_id] at hmap
    have hnumbers : Cbor.asList Cbor.asUint
        (.array (r.services.map fun service => .uint service.toNat)) =
          some (r.services.map UInt16.toNat) := by
      have hread : ∀ service : UInt16, Cbor.asUint (.uint service.toNat) = some service.toNat :=
        fun _ => rfl
      exact Cbor.asList_map hread r.services
    have hback : ∀ n : UInt64, n.toNat.toUInt64 = n := fun _ => UInt64.ofNat_toNat
    have hversion : decodeField L Cbor.asUint r.fields 0 = .ok r.version.toNat := rfl
    have hpeer : decodeField L Cbor.asText r.fields 1 = .ok (L.idString r.peerID) := rfl
    have hsequence : decodeField L Cbor.asUint r.fields 2 = .ok r.sequence.toNat := rfl
    have hissuedAt : decodeField L Cbor.asUint r.fields 3 = .ok r.issuedAt.toNat := rfl
    have hexpiresAt : decodeField L Cbor.asUint r.fields 4 = .ok r.expiresAt.toNat := rfl
    have hservices : decodeField L (Cbor.asList Cbor.asUint) r.fields 5 =
        .ok (r.services.map UInt16.toNat) := decodeField_ok rfl hnumbers
    have haddresses : decodeField L (Cbor.asList Cbor.asText) r.fields 6 =
        .ok (r.addresses.map L.addrString) := decodeField_ok rfl (htexts r.addresses)
    have hrelays : decodeField L (Cbor.asList Cbor.asText) r.fields 7 =
        .ok (r.relayReservations.map L.addrString) := decodeField_ok rfl (htexts r.relayReservations)
    have hcapabilities : decodeField L Cbor.asUint r.fields 8 = .ok r.capabilities.toNat := rfl
    simp only [decodePayload, hfields, hversion, hpeer, hsequence, hissuedAt, hexpiresAt, hservices,
      haddresses, hrelays, hcapabilities, h.peerID, parseServices_toNat h.normal.nonzero,
      hparse h.normal.addresses, hparse h.normal.relayReservations, bind, Except.bind, hback,
      h.normal.normalize, encodePayload, if_true]

/-- The envelope of a documented record that the key of its PeerId has signed. -/
structure Signed (K : Keys) (envelope : Bytes) (r : Record L) (publicBytes signature : Option Bytes)
    (key : K.PublicKey) : Prop where
  decoded : Cbor.decode envelope =
    some (.map (Cbor.uintPairs (envelopeFields r.payload publicBytes signature)))
  encoded : Cbor.encode (.map (Cbor.uintPairs (envelopeFields r.payload publicBytes signature))) =
    envelope
  documented : r.Documented
  unmarshaled : K.unmarshalPublicKey (publicBytes.getD []) = .ok key
  verified : K.verify key r.payload (signature.getD []) = .ok true
  author : K.idFromPublicKey key = .ok r.peerID

theorem decode_envelope {payload : Bytes} {publicBytes signature : Option Bytes}
    (hpayload : payload.length < 2 ^ 64) (hpublic : Cbor.Bounded (Cbor.ofSlice publicBytes))
    (hsignature : Cbor.Bounded (Cbor.ofSlice signature)) :
    Cbor.decode (Cbor.encode (.map (Cbor.uintPairs
      (envelopeFields payload publicBytes signature)))) =
      some (.map (Cbor.uintPairs (envelopeFields payload publicBytes signature))) := by
  have hbounded : Cbor.Bounded (.map (Cbor.uintPairs
      (envelopeFields payload publicBytes signature))) := by
    refine ⟨(show 4 < 2 ^ 64 by decide), Cbor.boundedPairs_uint ?_⟩
    simp only [envelopeFields, forall_mem_cons]
    refine ⟨⟨by decide, (show 1 < 2 ^ 64 by decide)⟩, ⟨by omega, hpayload⟩, ⟨by omega, hpublic⟩,
      ⟨by omega, hsignature⟩, fun _ h => absurd h not_mem_nil⟩
  have hvalid : Cbor.textsValid (.map (Cbor.uintPairs
      (envelopeFields payload publicBytes signature))) = true := by
    cases publicBytes <;> cases signature <;> rfl
  rw [Cbor.decode_encode hbounded, if_pos hvalid]

/-- `Verify` takes exactly the envelopes of signed records that meet its options. -/
theorem verify_ok_iff (hL : L.Lawful) {K : Keys} {clock : Time} {envelope : Bytes}
    {options : VerifyOptions} :
    verify L K clock envelope options = .ok r ↔
      (∃ publicBytes signature key, Signed K envelope r publicBytes signature key) ∧
        options.checkExpected r = .ok () ∧ options.checkTime clock r = .ok () := by
  constructor
  · intro h
    obtain ⟨fields, hfields, h⟩ := bind_eq_ok.mp h
    simp only [bind_eq_ok, ite_error_eq_ok] at h
    obtain ⟨version, hversion, -, payload, hpayload, hsize, publicBytes, hpublic, signature,
      hsignature, key, hkey, h⟩ := h
    split at h
    next hverified =>
      obtain ⟨record, hrecord, h⟩ := bind_eq_ok.mp h
      simp only [bind_eq_ok, ite_error_eq_ok] at h
      obtain ⟨id, hid, hauthor, _, hexpected, _, htime, hsame, h⟩ := h
      obtain rfl := Except.ok.inj h
      obtain ⟨rfl, hdocumented⟩ := (decodePayload_ok_iff hL (by omega)).mp hrecord
      obtain ⟨item, hdecode, hmap, -⟩ := decodeMap_ok hfields
      have hbounded := Cbor.bounded_of_asUintMap (Cbor.bounded_of_decode hdecode) hmap
      rw [orError_ok_iff, unmarshalField_ok_iff] at hpublic hsignature
      have hshort : record.payload.length < 2 ^ 64 := by
        rw [maxPayloadBytes] at hsize
        omega
      have hsigned := decode_envelope hshort
        (Cbor.bounded_ofSlice (Cbor.bounded_lookup hbounded 2) hpublic)
        (Cbor.bounded_ofSlice (Cbor.bounded_lookup hbounded 3) hsignature)
      rw [not_not.mp hsame] at hsigned
      exact ⟨⟨publicBytes, signature, key, hsigned, not_not.mp hsame, hdocumented, hkey, hverified,
        (not_not.mp hauthor) ▸ hid⟩, hexpected, htime⟩
    · cases h
  · rintro ⟨⟨publicBytes, signature, key, h⟩, hexpected, htime⟩
    have hwithin : Cbor.within limits limits.maxNestedLevels (.map (Cbor.uintPairs
        (envelopeFields r.payload publicBytes signature))) = true := by
      cases publicBytes <;> cases signature <;> rfl
    have hfields : decodeMap L envelope 4 =
        .ok (envelopeFields r.payload publicBytes signature) :=
      decodeMap_of_decode h.decoded hwithin rfl
    have hpos : r.payload.length ≠ 0 := Nat.ne_of_gt (Cbor.length_encode_pos r.item)
    have hsize : ¬ (r.payload.length = 0 ∨ r.payload.length > maxPayloadBytes) := by
      have := h.documented.size
      omega
    have hpayload := (decodePayload_ok_iff hL h.documented.size).mpr ⟨rfl, h.documented⟩
    have hpublic : unmarshalField L Cbor.asSlice (envelopeFields r.payload publicBytes signature) 2 =
        .ok publicBytes := unmarshalField_ok_iff.mpr (Cbor.asSlice_ofSlice publicBytes)
    have hsignature : unmarshalField L Cbor.asSlice
        (envelopeFields r.payload publicBytes signature) 3 = .ok signature :=
      unmarshalField_ok_iff.mpr (Cbor.asSlice_ofSlice signature)
    have hversion : unmarshalField L Cbor.asUint
        (envelopeFields r.payload publicBytes signature) 0 = .ok envelopeVersion.toNat := rfl
    have hbytes : unmarshalField L Cbor.asBytes
        (envelopeFields r.payload publicBytes signature) 1 = .ok r.payload := rfl
    rw [verify]
    refine bind_eq_ok.mpr ⟨_, hfields, bind_eq_ok.mpr ⟨_, orError_ok_iff.mpr hversion, ?_⟩⟩
    refine ite_error_eq_ok.mpr ⟨not_not.mpr rfl, bind_eq_ok.mpr ⟨_, orError_ok_iff.mpr hbytes, ?_⟩⟩
    refine ite_error_eq_ok.mpr ⟨hsize, bind_eq_ok.mpr ⟨_, orError_ok_iff.mpr hpublic, ?_⟩⟩
    refine bind_eq_ok.mpr ⟨_, orError_ok_iff.mpr hsignature, ?_⟩
    refine bind_eq_ok.mpr ⟨key, h.unmarshaled, ?_⟩
    rw [h.verified]
    refine bind_eq_ok.mpr ⟨r, hpayload, bind_eq_ok.mpr ⟨r.peerID, h.author, ?_⟩⟩
    refine ite_error_eq_ok.mpr ⟨not_not.mpr rfl, bind_eq_ok.mpr ⟨(), hexpected, ?_⟩⟩
    refine bind_eq_ok.mpr ⟨(), htime, ite_error_eq_ok.mpr ⟨not_not.mpr h.encoded, rfl⟩⟩

end P2PNetcat.RouteRecord
