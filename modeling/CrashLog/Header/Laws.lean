import CrashLog.Header.Basic

/-!
# What a header parse reads

`Header.fromSlice` reads the `headerSize` bytes of the header it returns and
nothing past them: the same header comes out of every slice that starts with
those bytes (`fromSlice_reads_header_size`). Each layout is handled by one
congruence lemma (equal leading bytes, equal result) and one length lemma
(success needs the bytes).

It panics on one family of inputs only: a legacy server version word in a
slice of exactly 24 bytes, where the unchecked `slice[24]` is out of bounds
(`fromSlice_eq_panic_iff`).

The version fields cover the whole word, so `Version::as_u32` gives back the
word `Version::from_slice` read (`Version.asU32_of_fromSlice`); the other way
round, decoding the word of a version whose fields fit their bit ranges gives
the version back (`Version.fromSlice_asU32`).
-/

namespace CrashLog

section
variable {s t : List UInt8} {n : Nat}

-- ---------------------------------------------------------------------------
-- Congruence: equal leading bytes, equal reads
-- ---------------------------------------------------------------------------

theorem Version.fromSlice_congr (h : t.take n = s.take n) (hn : 4 ≤ n) :
    Version.fromSlice t = Version.fromSlice s := by
  simp only [Version.fromSlice, u32At_congr h (show 0 + 4 ≤ n by omega)]

theorem RecordSize.fromSlice_congr (h : t.take n = s.take n) (hn : 8 ≤ n) :
    RecordSize.fromSlice t = RecordSize.fromSlice s := by
  simp only [RecordSize.fromSlice, u16At_congr h (show 4 + 2 ≤ n by omega),
    u16At_congr h (show 6 + 2 ≤ n by omega)]

theorem RecordSize.fromSliceType0LegacyServer_congr (h : t.take n = s.take n) (hn : 18 ≤ n) :
    RecordSize.fromSliceType0LegacyServer t = RecordSize.fromSliceType0LegacyServer s := by
  simp only [RecordSize.fromSliceType0LegacyServer, u16At_congr h (show 16 + 2 ≤ n by omega)]

namespace HeaderType

theorem type2FromSlice_congr (h : t.take n = s.take n) (hn : 24 ≤ n) :
    type2FromSlice t = type2FromSlice s := by
  simp only [type2FromSlice, u64At_congr h (show 8 + 8 ≤ n by omega),
    u32At_congr h (show 16 + 4 ≤ n by omega), u32At_congr h (show 20 + 4 ≤ n by omega)]

theorem type3FromSlice_congr (h : t.take n = s.take n) (hn : 28 ≤ n) :
    type3FromSlice t = type3FromSlice s := by
  simp only [type3FromSlice, u64At_congr h (show 8 + 8 ≤ n by omega),
    u32At_congr h (show 16 + 4 ≤ n by omega), u32At_congr h (show 20 + 4 ≤ n by omega),
    u32At_congr h (show 24 + 4 ≤ n by omega)]

theorem type4FromSlice_congr (h : t.take n = s.take n) (hn : 32 ≤ n) :
    type4FromSlice t = type4FromSlice s := by
  simp only [type4FromSlice, u64At_congr h (show 8 + 8 ≤ n by omega),
    u32At_congr h (show 16 + 4 ≤ n by omega), u32At_congr h (show 20 + 4 ≤ n by omega),
    u32At_congr h (show 24 + 4 ≤ n by omega), u32At_congr h (show 28 + 4 ≤ n by omega)]

theorem type5FromSlice_congr (h : t.take n = s.take n) (hn : 32 ≤ n) :
    type5FromSlice t = type5FromSlice s := by
  simp only [type5FromSlice, u64At_congr h (show 8 + 8 ≤ n by omega),
    u32At_congr h (show 16 + 4 ≤ n by omega), u32At_congr h (show 20 + 4 ≤ n by omega),
    u32At_congr h (show 24 + 4 ≤ n by omega), u32At_congr h (show 28 + 4 ≤ n by omega)]

theorem completionStatusFromSlice_congr (h : t.take n = s.take n) (hn : 28 + size * 4 ≤ n) :
    completionStatusFromSlice t size = completionStatusFromSlice s size :=
  mapM_option_congr fun d hd => u32At_congr h (by simp only [List.mem_range] at hd; omega)

theorem type6FromSlice_eq_some :
    type6FromSlice s = some x ↔
      ∃ timestamp agentVersion reason dieId socketId b2 b3 completionStatus,
        u64At s 8 = some timestamp ∧ u32At s 16 = some agentVersion ∧
        u32At s 20 = some reason ∧ getRange s 24 28 = some [dieId, socketId, b2, b3] ∧
        completionStatusFromSlice s (UInt16.ofNat (leNat [b2, b3]) &&& 0x7F).toNat =
          some completionStatus ∧
        x = .type6 timestamp agentVersion reason dieId socketId
          (UInt16.ofNat (leNat [b2, b3]) &&& 0x7F) completionStatus (b3 &&& 0x80 != 0) := by
  unfold type6FromSlice
  simp only [Option.bind_eq_bind, Option.bind_eq_some]
  constructor
  · rintro ⟨timestamp, h1, agentVersion, h2, reason, h3, h4⟩
    split at h4
    · next dieId socketId b2 b3 hr =>
      simp only [Option.bind_eq_some, Option.some.injEq] at h4
      obtain ⟨cs, hcs, rfl⟩ := h4
      exact ⟨_, _, _, _, _, _, _, _, h1, h2, h3, hr, hcs, rfl⟩
    · cases h4
  · rintro ⟨timestamp, agentVersion, reason, dieId, socketId, b2, b3, cs, h1, h2, h3, hr, hcs, rfl⟩
    exact ⟨_, h1, _, h2, _, h3, by rw [hr]; dsimp only; rw [hcs]; rfl⟩

theorem type6FromSlice_congr
    (hs : type6FromSlice s = some (.type6 ts av r d so size cs cc))
    (h : t.take n = s.take n) (hn : 28 + size.toNat * 4 ≤ n) :
    type6FromSlice t = some (.type6 ts av r d so size cs cc) := by
  obtain ⟨_, _, _, _, _, b2, b3, _, h1, h2, h3, hr, hcs, he⟩ := type6FromSlice_eq_some.mp hs
  cases he
  refine type6FromSlice_eq_some.mpr ⟨_, _, _, _, _, b2, b3, _, ?_, ?_, ?_, ?_, ?_, rfl⟩
  · rwa [u64At_congr h (by omega)]
  · rwa [u32At_congr h (by omega)]
  · rwa [u32At_congr h (by omega)]
  · rwa [getRange_congr h (by omega)]
  · rwa [completionStatusFromSlice_congr h hn]

theorem type0LegacyServerFromSlice_congr (h : t.take n = s.take n) (hn : 32 ≤ n) :
    type0LegacyServerFromSlice t = type0LegacyServerFromSlice s := by
  simp only [type0LegacyServerFromSlice, u64At_congr h (show 8 + 8 ≤ n by omega),
    u32At_congr h (show 4 + 4 ≤ n by omega), u32At_congr h (show 20 + 4 ≤ n by omega),
    u32At_congr h (show 28 + 4 ≤ n by omega), index_congr h (show 24 < n by omega),
    index_congr h (show 0 < n by omega)]

-- ---------------------------------------------------------------------------
-- Length: a parse that succeeds had its bytes
-- ---------------------------------------------------------------------------

theorem okOr_eq_ok {o : Option α} {e : ε} : okOr o e = .ok a ↔ o = some a := by
  cases o <;> simp [okOr]

theorem okOr_eq_error {o : Option α} {e : ε} : okOr o e = .error e' ↔ o = none ∧ e' = e := by
  cases o <;> simp [okOr, eq_comm]

theorem type2FromSlice_reads (hp : type2FromSlice s = some x) :
    x.headerSize = 24 ∧ 24 ≤ s.length := by
  simp only [type2FromSlice, Option.bind_eq_bind, Option.bind_eq_some, Option.some.injEq] at hp
  obtain ⟨_, -, _, -, _, hr, rfl⟩ := hp
  exact ⟨rfl, length_of_u32At hr⟩

theorem type3FromSlice_reads (hp : type3FromSlice s = some x) :
    x.headerSize = 28 ∧ 28 ≤ s.length := by
  simp only [type3FromSlice, Option.bind_eq_bind, Option.bind_eq_some, Option.some.injEq] at hp
  obtain ⟨_, -, _, -, _, -, _, hr, rfl⟩ := hp
  exact ⟨rfl, length_of_u32At hr⟩

theorem type4FromSlice_reads (hp : type4FromSlice s = some x) :
    x.headerSize = 32 ∧ 32 ≤ s.length := by
  simp only [type4FromSlice, Option.bind_eq_bind, Option.bind_eq_some, Option.some.injEq] at hp
  obtain ⟨_, -, _, -, _, -, _, -, _, hr, rfl⟩ := hp
  exact ⟨rfl, length_of_u32At hr⟩

theorem type5FromSlice_reads (hp : type5FromSlice s = some x) :
    x.headerSize = 32 ∧ 32 ≤ s.length := by
  simp only [type5FromSlice, Option.bind_eq_bind, Option.bind_eq_some, Option.some.injEq] at hp
  obtain ⟨_, -, _, -, _, -, _, -, _, hr, rfl⟩ := hp
  exact ⟨rfl, length_of_u32At hr⟩

theorem type6FromSlice_reads (hp : type6FromSlice s = some x) :
    x.headerSize ≤ s.length ∧
      ∀ t : List UInt8, t.take x.headerSize = s.take x.headerSize → type6FromSlice t = some x := by
  obtain ⟨_, _, _, _, _, b2, b3, _, -, -, -, hr, hcs, rfl⟩ := type6FromSlice_eq_some.mp hp
  refine ⟨?_, fun t ht => type6FromSlice_congr hp ht le_rfl⟩
  simp only [headerSize]
  rcases Nat.eq_zero_or_pos (UInt16.ofNat (leNat [b2, b3]) &&& 0x7F).toNat with h0 | hpos
  · rw [h0]; exact stop_le_of_getRange hr
  · obtain ⟨_, hw⟩ := Option.isSome_iff_exists.mp
      (isSome_of_mapM_option hcs _ (List.mem_range.mpr (Nat.sub_lt hpos Nat.one_pos)))
    have := length_of_u32At hw
    omega

theorem fixedFromSlice_reads {p : List UInt8 → Option HeaderType} {k : Nat}
    (hreads : ∀ {x}, p s = some x → x.headerSize = k ∧ k ≤ s.length)
    (hcongr : ∀ t : List UInt8, t.take k = s.take k → p t = p s)
    (hx : okOr (p s) Error.invalidHeader = .ok x) :
    x.headerSize ≤ s.length ∧ ∀ t : List UInt8, t.take x.headerSize = s.take x.headerSize →
      okOr (p t) Error.invalidHeader = .ok x := by
  rw [okOr_eq_ok] at hx
  obtain ⟨hn, hl⟩ := hreads hx
  refine ⟨hn ▸ hl, fun t ht => ?_⟩
  rw [hcongr t (hn ▸ ht), hx]
  rfl

theorem fromSlice_reads (hx : HeaderType.fromSlice v s = .ok x) (h8 : 8 ≤ s.length) :
    x.headerSize ≤ s.length ∧
      ∀ t : List UInt8, t.take x.headerSize = s.take x.headerSize →
        HeaderType.fromSlice v t = .ok x := by
  unfold HeaderType.fromSlice at hx ⊢
  split at hx
  next hv => cases hx; exact ⟨h8, fun _ _ => by simp only [hv]⟩
  next hv => cases hx; exact ⟨h8, fun _ _ => by simp only [hv]⟩
  next =>
    exact fixedFromSlice_reads (fun h => type2FromSlice_reads h)
      (fun t ht => type2FromSlice_congr ht le_rfl) hx
  next =>
    exact fixedFromSlice_reads (fun h => type3FromSlice_reads h)
      (fun t ht => type3FromSlice_congr ht le_rfl) hx
  next =>
    exact fixedFromSlice_reads (fun h => type4FromSlice_reads h)
      (fun t ht => type4FromSlice_congr ht le_rfl) hx
  next =>
    exact fixedFromSlice_reads (fun h => type5FromSlice_reads h)
      (fun t ht => type5FromSlice_congr ht le_rfl) hx
  next hv =>
    rw [okOr_eq_ok] at hx
    obtain ⟨hl, ht⟩ := type6FromSlice_reads hx
    exact ⟨hl, fun t h => by simp only [hv, ht t h, okOr]⟩
  next => cases hx

theorem fromSlice_eq_error (hx : HeaderType.fromSlice v s = .error e) :
    e = .invalidHeader ∨ ∃ n, e = .invalidHeaderType n := by
  unfold HeaderType.fromSlice at hx
  split at hx
  all_goals first
    | exact .inl (okOr_eq_error.mp hx).2
    | exact .inr ⟨_, (Except.error.inj hx).symm⟩
    | cases hx

theorem eight_le_headerSize (x : HeaderType) : 8 ≤ x.headerSize := by
  cases x <;> simp only [headerSize] <;> omega

theorem type0LegacyServerFromSlice_reads (hp : type0LegacyServerFromSlice s = .ret (some x)) :
    x.headerSize = 32 ∧ 32 ≤ s.length := by
  unfold type0LegacyServerFromSlice at hp
  split at hp
  · obtain ⟨_, -, hp⟩ := Run.bind_ret.mp hp
    split at hp
    · cases hp
    · obtain ⟨_, -, hp⟩ := Run.bind_ret.mp hp
      cases hp
      exact ⟨rfl, length_of_u32At ‹_›⟩
  · cases hp

theorem type0LegacyServerFromSlice_eq_ret_some (hp : type0LegacyServerFromSlice s = .ret (some x)) :
    ∃ timestamp agentVersion reason socketId revision completionStatus collectionComplete,
      s[24]? = some socketId ∧ s[0]? = some revision ∧
        x = .type0LegacyServer timestamp agentVersion reason (legacyDieId revision) socketId
          completionStatus collectionComplete := by
  unfold type0LegacyServerFromSlice at hp
  split at hp
  · obtain ⟨socketId, hsocket, hp⟩ := Run.bind_ret.mp hp
    split at hp
    · cases hp
    · obtain ⟨revision, hrevision, hp⟩ := Run.bind_ret.mp hp
      cases hp
      exact ⟨_, _, _, socketId, revision, _, _, getElem?_of_index_eq_ret hsocket,
        getElem?_of_index_eq_ret hrevision, rfl⟩
  · cases hp

theorem type0LegacyServerFromSlice_eq_panic_iff :
    type0LegacyServerFromSlice s = .panic ↔ s.length = 24 := by
  unfold type0LegacyServerFromSlice
  split
  next h20 =>
    have h24 := length_of_u32At h20
    rw [Run.bind_panic, index_eq_panic_iff]
    constructor
    · rintro (h | ⟨_, h0, hp⟩)
      · omega
      · split at hp
        · cases hp
        · obtain h' | ⟨_, -, h⟩ := Run.bind_panic.mp hp
          · have := length_of_u32At ‹u32At s 28 = _›
            rw [index_eq_panic_iff] at h'
            omega
          · cases h
    · intro h; exact .inl (by omega)
  next hnone =>
    simp only [Run.pure_eq, reduceCtorEq, false_iff]
    intro h
    obtain ⟨_, h1⟩ : ∃ v, u32At s 4 = some v := u32At_of_le (by omega)
    obtain ⟨_, h2⟩ : ∃ v, u64At s 8 = some v := u64At_of_le (by omega)
    obtain ⟨_, h3⟩ : ∃ v, u32At s 20 = some v := u32At_of_le (by omega)
    exact hnone _ _ _ h1 h2 h3

end HeaderType

end

namespace Header

variable {s t : List UInt8} {h : Header}

theorem RecordSize.length_of_fromSlice (hr : RecordSize.fromSlice s = some r) : 8 ≤ s.length := by
  simp only [RecordSize.fromSlice, Option.bind_eq_bind, Option.bind_eq_some] at hr
  obtain ⟨_, -, _, h6, -⟩ := hr
  exact length_of_u16At h6

theorem fromSlice_eq_ok_some (hs : fromSlice s = .ret (.ok (some h))) :
    Version.fromSlice s = some h.version ∧
      (h.version.intoErrata.type0LegacyServer = true ∧
          RecordSize.fromSliceType0LegacyServer s = some h.size ∧
          HeaderType.type0LegacyServerFromSlice s = .ret (some h.headerType) ∨
        h.version.intoErrata.type0LegacyServer = false ∧ RecordSize.fromSlice s = some h.size ∧
          HeaderType.fromSlice h.version.headerType s = .ok h.headerType) := by
  unfold fromSlice at hs
  split at hs
  · cases hs
  next v hv =>
    simp only [Errata.fromVersion] at hs
    split at hs
    · cases hs
    next sz hsz =>
      split at hs
      next hl =>
        simp only [hl, if_true] at hsz
        cases hx : HeaderType.type0LegacyServerFromSlice s with
        | panic => simp [HeaderType.fromSliceType0LegacyServer, hx] at hs
        | ret o =>
          cases o <;>
            simp [HeaderType.fromSliceType0LegacyServer, hx, okOr, Except.map] at hs
          subst hs
          exact ⟨hv, .inl ⟨hl, hsz, rfl⟩⟩
      next hl =>
        simp only [hl, if_false] at hsz
        cases hx : HeaderType.fromSlice v.headerType s <;> simp [hx, Except.map] at hs
        subst hs
        exact ⟨hv, .inr ⟨by simpa using hl, hsz, hx⟩⟩

/-- A parsed header needs its `headerSize` bytes and reads nothing past them:
every slice that starts with them parses to the same header. -/
theorem fromSlice_reads_header_size (hs : Header.fromSlice s = .ret (.ok (some h))) :
    h.headerSize ≤ s.length ∧
      ∀ t : List UInt8, t.take h.headerSize = s.take h.headerSize →
        Header.fromSlice t = .ret (.ok (some h)) := by
  have h8 := HeaderType.eight_le_headerSize h.headerType
  obtain ⟨hv, ⟨hl, hsz, hx⟩ | ⟨hl, hsz, hx⟩⟩ := fromSlice_eq_ok_some hs
  · obtain ⟨h32, hlen⟩ := HeaderType.type0LegacyServerFromSlice_reads hx
    simp only [headerSize, h32]
    refine ⟨hlen, fun t ht => hs ▸ ?_⟩
    unfold fromSlice
    rw [Version.fromSlice_congr ht (by omega), hv]
    simp only [Errata.fromVersion, hl, if_true,
      RecordSize.fromSliceType0LegacyServer_congr ht (by omega),
      HeaderType.fromSliceType0LegacyServer, HeaderType.type0LegacyServerFromSlice_congr ht le_rfl]
  · obtain ⟨hlen, hcongr⟩ := HeaderType.fromSlice_reads hx (RecordSize.length_of_fromSlice hsz)
    refine ⟨hlen, fun t ht => hs ▸ ?_⟩
    unfold fromSlice
    rw [Version.fromSlice_congr ht (by simp only [headerSize] at *; omega), hv]
    simp only [Errata.fromVersion, hl, if_false, Bool.false_eq_true,
      RecordSize.fromSlice_congr ht (by simpa only [headerSize] using h8), hcongr t ht, hx]

-- A slice of a fixed-size layout: version word of revision 1 and the given header type, a record
-- size of 8, and zeros.
def layoutSample (headerType : UInt8) (zeros : Nat) : List UInt8 :=
  [1, headerType, 0, 0, 8, 0, 0, 0] ++ List.replicate zeros 0

-- A Type6 slice with two completion status words and four bytes past them.
def type6Sample : List UInt8 :=
  [2, 6, 0, 0, 5, 0, 0, 0] ++ List.replicate 16 0 ++ [1, 0, 2, 0] ++ List.replicate 12 7

-- The spec's legacy server record, revision byte `0x81` and socket 1, with two bytes past its
-- header.
def legacyServerSample : List UInt8 :=
  [0x81, 0xF0, 0x02, 0x3E, 0, 0, 0, 0, 0, 0, 0, 0, 0, 0, 0, 0,
    0x08, 0, 0, 0, 0, 0, 0, 0, 0x01, 0, 0, 0, 0, 0, 0, 0x80, 9, 9]

theorem fromSlice_reads_header_size_each_layout :
    (∃ h, Header.fromSlice (layoutSample 2 18) = .ret (.ok (some h)) ∧
      h.headerSize ≤ (layoutSample 2 18).length ∧
      ∀ t : List UInt8, t.take h.headerSize = (layoutSample 2 18).take h.headerSize →
        Header.fromSlice t = .ret (.ok (some h))) ∧
    (∃ h, Header.fromSlice (layoutSample 3 22) = .ret (.ok (some h)) ∧
      h.headerSize ≤ (layoutSample 3 22).length ∧
      ∀ t : List UInt8, t.take h.headerSize = (layoutSample 3 22).take h.headerSize →
        Header.fromSlice t = .ret (.ok (some h))) ∧
    (∃ h, Header.fromSlice (layoutSample 4 26) = .ret (.ok (some h)) ∧
      h.headerSize ≤ (layoutSample 4 26).length ∧
      ∀ t : List UInt8, t.take h.headerSize = (layoutSample 4 26).take h.headerSize →
        Header.fromSlice t = .ret (.ok (some h))) ∧
    (∃ h, Header.fromSlice (layoutSample 5 26) = .ret (.ok (some h)) ∧
      h.headerSize ≤ (layoutSample 5 26).length ∧
      ∀ t : List UInt8, t.take h.headerSize = (layoutSample 5 26).take h.headerSize →
        Header.fromSlice t = .ret (.ok (some h))) ∧
    (∃ h, Header.fromSlice type6Sample = .ret (.ok (some h)) ∧ h.headerSize ≤ type6Sample.length ∧
      ∀ t : List UInt8, t.take h.headerSize = type6Sample.take h.headerSize →
        Header.fromSlice t = .ret (.ok (some h))) ∧
    (∃ h, Header.fromSlice legacyServerSample = .ret (.ok (some h)) ∧
      h.headerSize ≤ legacyServerSample.length ∧
      ∀ t : List UInt8, t.take h.headerSize = legacyServerSample.take h.headerSize →
        Header.fromSlice t = .ret (.ok (some h))) :=
  have h2 : Header.fromSlice (layoutSample 2 18) =
      .ret (.ok (some ⟨⟨1, 2, 0, 0, false, false⟩, ⟨8, 0⟩, .type2 0 0 0⟩)) := by decide
  have h3 : Header.fromSlice (layoutSample 3 22) =
      .ret (.ok (some ⟨⟨1, 3, 0, 0, false, false⟩, ⟨8, 0⟩, .type3 0 0 0 0 false⟩)) := by decide
  have h4 : Header.fromSlice (layoutSample 4 26) =
      .ret (.ok (some ⟨⟨1, 4, 0, 0, false, false⟩, ⟨8, 0⟩, .type4 0 0 0 0 0⟩)) := by decide
  have h5 : Header.fromSlice (layoutSample 5 26) =
      .ret (.ok (some ⟨⟨1, 5, 0, 0, false, false⟩, ⟨8, 0⟩, .type5 0 0 0 0 false 0⟩)) := by decide
  have h6 : Header.fromSlice type6Sample = .ret (.ok (some
      ⟨⟨2, 6, 0, 0, false, false⟩, ⟨5, 0⟩, .type6 0 0 0 1 0 2 [0x07070707, 0x07070707] false⟩)) := by
    decide
  have hl : Header.fromSlice legacyServerSample = .ret (.ok (some
      ⟨⟨0x81, 0, 0x2f, 0x3E, false, false⟩, ⟨8, 0⟩, .type0LegacyServer 0 0 0 10 1 0 true⟩)) := by
    decide
  ⟨⟨_, h2, fromSlice_reads_header_size h2⟩, ⟨_, h3, fromSlice_reads_header_size h3⟩,
    ⟨_, h4, fromSlice_reads_header_size h4⟩, ⟨_, h5, fromSlice_reads_header_size h5⟩,
    ⟨_, h6, fromSlice_reads_header_size h6⟩, ⟨_, hl, fromSlice_reads_header_size hl⟩⟩

-- ---------------------------------------------------------------------------
-- Panics
-- ---------------------------------------------------------------------------

/-- Every call that returns ends in one of the four results the spec lists. -/
theorem fromSlice_eq_ret (hs : fromSlice s = .ret r) :
    r = .ok none ∨ (∃ h, r = .ok (some h)) ∨ r = .error .invalidHeader ∨
      ∃ n, r = .error (.invalidHeaderType n) := by
  unfold fromSlice at hs
  split at hs
  · cases hs; simp
  · simp only [Errata.fromVersion] at hs
    split at hs
    · cases hs; simp
    · split at hs
      · cases hx : HeaderType.type0LegacyServerFromSlice s with
        | panic => simp [HeaderType.fromSliceType0LegacyServer, hx] at hs
        | ret o =>
          cases o <;> simp [HeaderType.fromSliceType0LegacyServer, hx, okOr, Except.map] at hs <;>
            simp [← hs]
      · cases hs
        cases hx : HeaderType.fromSlice _ s with
        | ok x => simp [Except.map]
        | error e =>
          rcases HeaderType.fromSlice_eq_error hx with rfl | ⟨n, rfl⟩ <;> simp [Except.map]

theorem RecordSize.fromSliceType0LegacyServer_of_le (hl : 18 ≤ s.length) :
    ∃ r, RecordSize.fromSliceType0LegacyServer s = some r := by
  obtain ⟨v, hv⟩ : ∃ v, u16At s 16 = some v := u16At_of_le (by omega)
  exact ⟨⟨v, 0⟩, by simp [RecordSize.fromSliceType0LegacyServer, hv]⟩

/-- `Header.fromSlice` panics on exactly the slices of 24 bytes that start with a
legacy server version word. -/
theorem fromSlice_eq_panic_iff :
    fromSlice s = .panic ↔
      (∃ v, Version.fromSlice s = some v ∧ v.intoErrata.type0LegacyServer = true) ∧
        s.length = 24 := by
  unfold fromSlice
  split
  next hv => simp [hv]
  next v hv =>
    simp only [Errata.fromVersion]
    by_cases hl : v.intoErrata.type0LegacyServer = true
    · simp only [hl, if_true, hv, Option.some.injEq, exists_eq_left', true_and]
      split
      next hsz =>
        simp only [Run.pure_eq, reduceCtorEq, false_iff]
        intro h24
        obtain ⟨_, hr⟩ := RecordSize.fromSliceType0LegacyServer_of_le (s := s) (by omega)
        simp [hr] at hsz
      next =>
        rw [← HeaderType.type0LegacyServerFromSlice_eq_panic_iff,
          HeaderType.fromSliceType0LegacyServer]
        cases HeaderType.type0LegacyServerFromSlice s <;> simp
    · simp only [hl, hv, Option.some.injEq, exists_eq_left', false_and, iff_false, if_false,
        Bool.false_eq_true]
      split <;> simp

theorem fromSlice_legacy_short (hv : Version.fromSlice s = some v)
    (hl : v.intoErrata.type0LegacyServer = true) (h32 : s.length < 32) (h24 : s.length ≠ 24) :
    fromSlice s = .ret (.error .invalidHeader) := by
  cases hx : HeaderType.type0LegacyServerFromSlice s with
  | panic => exact absurd (HeaderType.type0LegacyServerFromSlice_eq_panic_iff.mp hx) h24
  | ret o =>
    cases o with
    | some x => have := (HeaderType.type0LegacyServerFromSlice_reads hx).2; omega
    | none =>
      unfold fromSlice
      simp only [hv, Errata.fromVersion, hl, if_true]
      split
      · rfl
      · simp [HeaderType.fromSliceType0LegacyServer, hx, okOr, Except.map]

/-- The header parser's outcomes over every slice: it panics on the 24-byte legacy
server slices and only there, every other call ends in `Ok(None)`, `Ok(Some h)`,
`InvalidHeader` or `InvalidHeaderType`, and the other legacy server slices
shorter than 32 bytes give `InvalidHeader`. -/
theorem fromSlice_outcomes (s : List UInt8) :
    (fromSlice s = .panic ↔
      (∃ v, Version.fromSlice s = some v ∧ v.intoErrata.type0LegacyServer = true) ∧
        s.length = 24) ∧
    (∀ r, fromSlice s = .ret r → r = .ok none ∨ (∃ h, r = .ok (some h)) ∨
      r = .error .invalidHeader ∨ ∃ n, r = .error (.invalidHeaderType n)) ∧
    (∀ v, Version.fromSlice s = some v → v.intoErrata.type0LegacyServer = true →
      s.length < 32 → s.length ≠ 24 → fromSlice s = .ret (.error .invalidHeader)) :=
  ⟨fromSlice_eq_panic_iff, fun _ => fromSlice_eq_ret, fun _ hv hl => fromSlice_legacy_short hv hl⟩

/-- The legacy server layout at 24 bytes: `slice[24]` is out of bounds. -/
theorem fromSlice_legacy_server_24_panics :
    Header.fromSlice ([0x01, 0xF0, 0x02, 0x00] ++ List.replicate 20 0) = .panic := by
  decide

end Header

-- ---------------------------------------------------------------------------
-- The version word
-- ---------------------------------------------------------------------------

theorem UInt32.toNat_or (a b : UInt32) : (a ||| b).toNat = a.toNat ||| b.toNat := BitVec.toNat_or _ _

theorem UInt32.toNat_shiftLeft (a b : UInt32) :
    (a <<< b).toNat = a.toNat <<< (b.toNat % 32) % 2 ^ 32 := by
  show (a.toBitVec <<< (b.mod 32).toBitVec).toNat = _
  rw [BitVec.shiftLeft_eq', BitVec.toNat_shiftLeft]
  rfl

theorem UInt32.toNat_shiftRight (a b : UInt32) : (a >>> b).toNat = a.toNat >>> (b.toNat % 32) := by
  show (a.toBitVec >>> (b.mod 32).toBitVec).toNat = _
  rw [BitVec.ushiftRight_eq', BitVec.toNat_ushiftRight]
  rfl

theorem UInt32.toNat_flag (x : UInt32) :
    (if (x &&& 1 == 1) = true then 1 else 0 : UInt32).toNat = x.toNat % 2 ^ 1 := by
  have h : (x &&& 1).toNat = x.toNat % 2 := by rw [UInt32.and_toNat]; exact Nat.and_one_is_mod _
  by_cases hb : (x &&& 1).toNat = 1
  · have : x &&& 1 = 1 := UInt32.toNat.inj hb
    simp [this]; omega
  · have : x &&& 1 ≠ 1 := fun e => hb (by rw [e]; rfl)
    simp [this]; omega

theorem mod_two_pow_mod_two_pow {a b : Nat} (x : Nat) (h : a ≤ b) : x % 2 ^ a % 2 ^ b = x % 2 ^ a :=
  Nat.mod_eq_of_lt (lt_of_lt_of_le (Nat.mod_lt _ (by positivity)) (Nat.pow_le_pow_right (by norm_num) h))

theorem testBit_field (x k n i : Nat) :
    ((x >>> k % 2 ^ n) <<< k).testBit i = (decide (k ≤ i ∧ i < k + n) && x.testBit i) := by
  simp only [Nat.testBit_shiftLeft, Nat.testBit_mod_two_pow, Nat.testBit_shiftRight]
  by_cases h : k ≤ i
  · rw [Nat.add_sub_cancel' h]
    by_cases h' : i < k + n <;> simp [h, h'] <;> omega
  · simp [h]

theorem Version.asU32_fields (w : UInt32) :
    Version.asU32 {
      cldic := (w >>> 30) &&& 1 == 1
      consumed := (w >>> 31) &&& 1 == 1
      revision := w &&& 0xFF
      headerType := ((w >>> 8) &&& 0xF).toUInt16
      productId := (w >>> 12) &&& 0xFFF
      recordType := ((w >>> 24) &&& 0x3F).toUInt8 } = w := by
  apply UInt32.toNat.inj
  apply Nat.eq_of_testBit_eq
  intro i
  simp only [Version.asU32, UInt32.toNat_or, UInt32.toNat_shiftLeft, UInt32.toNat_shiftRight,
    UInt32.and_toNat, UInt32.toNat_flag, UInt8.toUInt32_toNat, UInt16.toUInt32_toNat,
    UInt32.toUInt8_toNat, UInt32.toUInt16_toNat, UInt32.reduceToNat, Nat.reduceMod]
  rw [show (63 : Nat) = 2 ^ 6 - 1 from rfl, show (4095 : Nat) = 2 ^ 12 - 1 from rfl,
    show (15 : Nat) = 2 ^ 4 - 1 from rfl, show (255 : Nat) = 2 ^ 8 - 1 from rfl]
  simp only [Nat.and_pow_two_sub_one_eq_mod, mod_two_pow_mod_two_pow _ (show 6 ≤ 8 by omega),
    mod_two_pow_mod_two_pow _ (show 4 ≤ 16 by omega), Nat.testBit_or, Nat.testBit_mod_two_pow,
    testBit_field]
  have hw : 32 ≤ i → w.toNat.testBit i = false := fun h =>
    Nat.testBit_lt_two_pow (lt_of_lt_of_le w.toNat_lt (Nat.pow_le_pow_right (by norm_num) h))
  cases ht : w.toNat.testBit i <;> simp only [Bool.and_false, Bool.or_false, Bool.and_true]
  have hi : i < 32 := Nat.lt_of_not_le fun h => by simp [hw h] at ht
  simp only [Bool.or_eq_true, Bool.and_eq_true, decide_eq_true_eq]
  omega

theorem Version.fromSlice_eq_some {s : List UInt8} {v : Version} (h : Version.fromSlice s = some v) :
    ∃ w, u32At s 0 = some w ∧ w ≠ 0 ∧ w ≠ 0xdeadbeef ∧ v = {
      cldic := (w >>> 30) &&& 1 == 1
      consumed := (w >>> 31) &&& 1 == 1
      revision := w &&& 0xFF
      headerType := ((w >>> 8) &&& 0xF).toUInt16
      productId := (w >>> 12) &&& 0xFFF
      recordType := ((w >>> 24) &&& 0x3F).toUInt8 } := by
  simp only [Version.fromSlice] at h
  cases hw : u32At s 0 with
  | none => simp [hw] at h
  | some w =>
    simp only [hw, Option.bind_eq_bind, Option.some_bind] at h
    split at h
    · cases h
    next hm =>
      cases h
      exact ⟨w, rfl, fun e => hm (.inl e), fun e => hm (.inr e), rfl⟩

/-- `as_u32` gives back the word `Version::from_slice` read. -/
theorem Version.asU32_of_fromSlice {s : List UInt8} {v : Version} (h : Version.fromSlice s = some v) :
    u32At s 0 = some v.asU32 := by
  obtain ⟨w, hw, -, -, rfl⟩ := Version.fromSlice_eq_some h
  rw [Version.asU32_fields, hw]

/-- Every field of a version fits its place in the version word. -/
def Version.Fits (v : Version) : Prop :=
  v.revision.toNat < 2 ^ 8 ∧ v.headerType.toNat < 2 ^ 4 ∧ v.productId.toNat < 2 ^ 12 ∧
    v.recordType.toNat < 2 ^ 6

instance : DecidablePred Version.Fits := fun _ => inferInstanceAs (Decidable (_ ∧ _ ∧ _ ∧ _))

theorem mul_two_pow_or_eq_add {a b k : Nat} (hb : b < 2 ^ k) : a * 2 ^ k ||| b = a * 2 ^ k + b := by
  rw [Nat.mul_comm, Nat.mul_add_lt_is_or hb]

theorem UInt32.toNat_ite (b : Bool) : (if b then 1 else 0 : UInt32).toNat = b.toNat := by
  cases b <;> rfl

theorem UInt32.and_one_beq_one {x : UInt32} {b : Bool} (h : x.toNat % 2 = b.toNat) :
    (x &&& 1 == 1) = b := by
  have hf := UInt32.toNat_flag x
  cases hx : (x &&& 1 == 1) <;> cases b <;> simp_all

theorem u32At_toLeBytes (w : UInt32) : u32At w.toLeBytes 0 = some w := by
  simp only [u32At, getRange_self (UInt32.length_toLeBytes w), Option.map_some',
    UInt32.ofNat_leNat_toLeBytes]

theorem Version.toNat_asU32 {v : Version} (hv : v.Fits) :
    v.asU32.toNat = v.revision.toNat + 2 ^ 8 * v.headerType.toNat + 2 ^ 12 * v.productId.toNat +
      2 ^ 24 * v.recordType.toNat + 2 ^ 30 * v.cldic.toNat + 2 ^ 31 * v.consumed.toNat := by
  obtain ⟨h1, h2, h3, h4⟩ := hv
  have h5 := Bool.toNat_le v.cldic
  have h6 := Bool.toNat_le v.consumed
  simp only [Version.asU32, UInt32.toNat_or, UInt32.toNat_shiftLeft, UInt32.toNat_ite,
    UInt8.toUInt32_toNat, UInt16.toUInt32_toNat, UInt32.reduceToNat, Nat.reduceMod, Nat.or_assoc,
    Nat.shiftLeft_eq]
  simp (disch := omega) only [Nat.mod_eq_of_lt, mul_two_pow_or_eq_add]
  omega

/-- Decoding the word `as_u32` writes gives the version back, for every version
whose fields fit and whose word is no termination marker. -/
theorem Version.fromSlice_asU32 {v : Version} (hv : v.Fits)
    (hm : v.asU32 ≠ 0 ∧ v.asU32 ≠ 0xdeadbeef) :
    Version.fromSlice v.asU32.toLeBytes = some v := by
  have hN := Version.toNat_asU32 hv
  simp only [Version.fromSlice, u32At_toLeBytes, Option.bind_eq_bind, Option.some_bind, hm.1, hm.2,
    or_self, if_false, Option.some.injEq]
  generalize v.asU32 = w at hN
  obtain ⟨revision, headerType, productId, recordType, consumed, cldic⟩ := v
  obtain ⟨h1, h2, h3, h4⟩ := hv
  have h5 := Bool.toNat_le cldic
  have h6 := Bool.toNat_le consumed
  refine Version.mk.injEq _ _ _ _ _ _ _ _ _ _ _ _ ▸ ⟨UInt32.toNat.inj ?_, UInt16.toNat.inj ?_,
    UInt32.toNat.inj ?_, UInt8.toNat.inj ?_, UInt32.and_one_beq_one ?_, UInt32.and_one_beq_one ?_⟩ <;>
  simp only [UInt32.and_toNat, UInt32.toNat_shiftRight, UInt32.toUInt16_toNat, UInt32.toUInt8_toNat,
    UInt32.reduceToNat, Nat.reduceMod, show (255 : Nat) = 2 ^ 8 - 1 from rfl,
    show (15 : Nat) = 2 ^ 4 - 1 from rfl, show (4095 : Nat) = 2 ^ 12 - 1 from rfl,
    show (63 : Nat) = 2 ^ 6 - 1 from rfl, Nat.and_pow_two_sub_one_eq_mod,
    Nat.shiftRight_eq_div_pow] at hN h1 h2 h3 h4 ⊢ <;>
  omega

end CrashLog
