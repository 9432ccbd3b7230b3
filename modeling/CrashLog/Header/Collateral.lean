import CrashLog.Header.View

/-!
# The header's collateral lookups

`header.rs` asks the collateral manager for three things: the product's names
(`product`, `variant`, `pvss`), the die's name (`get_die_name`, `die`) and the
decode definitions' candidate paths (`decode_definitions_paths`). It also
names the place in the tree of a record whose header carries a socket and a
die (`get_root_path`, `get_root_path_using_cm`).

The collateral manager is modelled from the spec by the two parts of its
interface the core uses: `target_info`, a map from product ids to the
product's names and die names, and `get_item_with_header`, which resolves a
path to an item's bytes or fails.

The two root paths differ only in the die's segment: a die the collateral tree
names gets its name, any other die `die<id>`, and both are defined exactly for
the headers that carry a die id (`getRootPathUsingCm_eq`, `getRootPath_eq`).
`pvss` fails only for an unknown product id other than 0
(`pvss_eq_error_iff`).
-/

namespace CrashLog

/-- Modelled from the spec: what `target_info` holds for one product. -/
structure TargetInfo where
  product : String
  variant : String
  dieId : List (UInt8 × String)
  deriving DecidableEq, Repr

/-- Modelled from the spec: the collateral manager's interface. An item the
tree cannot resolve is `none`. -/
structure CollateralManager where
  targetInfo : UInt32 → Option TargetInfo
  getItemWithHeader : Header → List String → Option (List UInt8)

/-- The product and variant fields of `PVSS`; `pvss` leaves the others at their
defaults. -/
structure PVSS where
  product : String
  variant : String
  deriving DecidableEq, Repr

namespace Header

/-- `Header::revision`. -/
def revision (h : Header) : UInt32 := h.version.revision

/-- `Header::product_id`. -/
def productId (h : Header) : UInt32 := h.version.productId

/-- `Header::product`. -/
def product (h : Header) (cm : CollateralManager) : Except Error String :=
  match cm.targetInfo h.productId with
  | some targetInfo => .ok targetInfo.product
  | none => .error (.invalidProductID h.productId)

/-- `Header::variant`. -/
def variant (h : Header) (cm : CollateralManager) : Option String :=
  (cm.targetInfo h.productId).map (·.variant)

/-- `Header::socket_id`. -/
def socketId (h : Header) : UInt8 :=
  match h.headerType with
  | .type6 _ _ _ _ socketId _ _ _ => socketId
  | .type0LegacyServer _ _ _ _ socketId _ _ => socketId
  | _ => 0

/-- `Header::die_id`. -/
def dieId (h : Header) : Option UInt8 :=
  match h.headerType with
  | .type6 _ _ _ dieId _ _ _ _ => some dieId
  | .type0LegacyServer _ _ _ dieId _ _ _ => some dieId
  | _ => none

/-- `Header::get_die_name`. -/
def getDieName (h : Header) (dieId : UInt8) (cm : CollateralManager) : Option String := do
  let targetInfo ← cm.targetInfo h.productId
  targetInfo.dieId.lookup dieId

/-- `Header::die`. -/
def die (h : Header) (cm : CollateralManager) : Option String := do
  h.getDieName (← h.dieId) cm

/-- `trim_end_matches(char::is_numeric)`. -/
def trimEndNumeric (s : String) : String := ⟨(s.data.reverse.dropWhile isNumeric).reverse⟩

/-- `Header::decode_definitions_paths`. -/
def decodeDefinitionsPaths (h : Header) (cm : CollateralManager) :
    Except Error (List (List String)) := do
  let recordType ← h.recordType
  let revision := toString h.revision
  pure <| match h.die cm with
    | some die => [["decode-defs", recordType, trimEndNumeric die, revision]]
    | none => [["decode-defs", recordType, revision], ["decode-defs", recordType, "all"]]

/-- `Header::pvss`. -/
def pvss (h : Header) (cm : CollateralManager) : Except Error PVSS := do
  let product ← match h.product cm with
    | .error (.invalidProductID 0) => pure "all"
    | res => res
  let variant := (h.variant cm).getD "all"
  pure { product, variant }

/-- `Header::get_root_path`. -/
def getRootPath (h : Header) : Option String :=
  match h.headerType with
  | .type6 _ _ _ dieId socketId _ _ _ | .type0LegacyServer _ _ _ dieId socketId _ _ =>
    some ("processors.cpu" ++ toString socketId ++ ".die" ++ toString dieId)
  | _ => none

/-- `Header::get_root_path_using_cm`. -/
def getRootPathUsingCm (h : Header) (cm : CollateralManager) : Option String :=
  match h.headerType with
  | .type6 _ _ _ _ socketId _ _ _ | .type0LegacyServer _ _ _ _ socketId _ _ =>
    match h.die cm with
    | some die => some ("processors.cpu" ++ toString socketId ++ "." ++ die)
    | none => h.getRootPath
  | _ => none

-- ---------------------------------------------------------------------------
-- Root paths
-- ---------------------------------------------------------------------------

/-- The path `processors.cpu<socket>.<die>` the two root paths build. -/
def socketDiePath (socketId : UInt8) (die : String) : String :=
  "processors.cpu" ++ toString socketId ++ "." ++ die

/-- `die<id>`, the die's segment when the collateral tree has no name for it. -/
def dieSegment (dieId : UInt8) : String := "die" ++ toString dieId

theorem dot_die_append (x : String) : ".die" ++ x = "." ++ ("die" ++ x) := by
  rw [← String.append_assoc]; rfl

theorem dot_not_mem_toString (n : Nat) : '.' ∉ (toString n).data := fun h =>
  absurd (isDigit_of_mem_toString h) (by decide)

theorem split_socketDiePath_dieSegment (socketId dieId : UInt8) :
    split (socketDiePath socketId (dieSegment dieId)) '.' =
      ["processors", "cpu" ++ toString socketId, "die" ++ toString dieId] := by
  have hjoin : socketDiePath socketId (dieSegment dieId) = String.mk (['.'].intercalate
      (["processors", "cpu" ++ toString socketId, "die" ++ toString dieId].map String.data)) := by
    apply String.ext
    simp [socketDiePath, dieSegment, String.data_append, List.intercalate]
  rw [hjoin]
  refine split_intercalate (by simp) ?_
  simp only [List.mem_cons, List.mem_singleton, List.not_mem_nil, or_false]
  rintro p (rfl | rfl | rfl)
  · decide
  · simpa [String.data_append] using dot_not_mem_toString socketId.toNat
  · simpa [String.data_append] using dot_not_mem_toString dieId.toNat

/-- `get_root_path` is defined exactly for the headers with a die id, and names
the die by its id. -/
theorem getRootPath_eq (h : Header) :
    h.getRootPath = h.dieId.map fun d => socketDiePath h.socketId (dieSegment d) := by
  obtain ⟨v, s, t⟩ := h
  cases t <;> simp [getRootPath, dieId, socketId, socketDiePath, dieSegment, String.append_assoc,
    dot_die_append]

/-- `get_root_path_using_cm` is defined exactly for the headers with a die id,
and names the die by the collateral tree's name for it, or else by its id. -/
theorem getRootPathUsingCm_eq (h : Header) (cm : CollateralManager) :
    h.getRootPathUsingCm cm =
      h.dieId.map fun d => socketDiePath h.socketId ((h.getDieName d cm).getD (dieSegment d)) := by
  obtain ⟨v, s, t⟩ := h
  cases t <;> simp only [getRootPathUsingCm, die, dieId, socketId, Option.bind_eq_bind,
    Option.some_bind, Option.map_none', Option.map_some']
  all_goals
    split
    next d hd => simp [hd, socketDiePath]
    next hd => simp [hd, getRootPath, socketDiePath, dieSegment, String.append_assoc, dot_die_append]

theorem getRootPathUsingCm_of_die_eq_none {h : Header} {cm : CollateralManager}
    (hd : h.die cm = none) : h.getRootPathUsingCm cm = h.getRootPath := by
  rw [getRootPathUsingCm_eq, getRootPath_eq]
  cases hid : h.dieId with
  | none => rfl
  | some d => simp_all [die]

-- ---------------------------------------------------------------------------
-- The decode definitions' paths
-- ---------------------------------------------------------------------------

/-- `trim_end_matches(char::is_numeric)` removes exactly the trailing numeric
characters: the string is the result followed by numeric characters only, and
the result does not end in one. -/
theorem trimEndNumeric_spec (s : String) :
    ∃ digits, s.data = (trimEndNumeric s).data ++ digits ∧ (∀ c ∈ digits, isNumeric c) ∧
      ∀ c ∈ (trimEndNumeric s).data.getLast?, isNumeric c = false := by
  refine ⟨(s.data.reverse.takeWhile isNumeric).reverse, ?_,
    fun c hc => List.mem_takeWhile_imp (List.mem_reverse.1 hc), fun c hc => ?_⟩
  · show s.data = (s.data.reverse.dropWhile isNumeric).reverse ++ _
    rw [← List.reverse_append, List.takeWhile_append_dropWhile, List.reverse_reverse]
  · have hnot := List.head?_dropWhile_not isNumeric s.data.reverse
    have hc' : (s.data.reverse.dropWhile isNumeric).head? = some c := by
      simpa [trimEndNumeric] using hc
    rw [hc'] at hnot
    exact hnot

/-- With a die the collateral tree names, the only candidate path is
`decode-defs/<record type>/<die root>/<revision>`, where the die root is the
die's name without its trailing numeric characters. -/
theorem decodeDefinitionsPaths_of_die {h : Header} {cm : CollateralManager} {die recordType : String}
    (hd : h.die cm = some die) (hrt : h.recordType = .ok recordType) :
    ∃ dieRoot digits,
      h.decodeDefinitionsPaths cm = .ok [["decode-defs", recordType, dieRoot, toString h.revision]] ∧
        die.data = dieRoot.data ++ digits ∧ (∀ c ∈ digits, isNumeric c) ∧
        ∀ c ∈ dieRoot.data.getLast?, isNumeric c = false := by
  obtain ⟨digits, hsplit, hdigits, hlast⟩ := trimEndNumeric_spec die
  have hpaths : h.decodeDefinitionsPaths cm =
      .ok [["decode-defs", recordType, trimEndNumeric die, toString h.revision]] := by
    simp [decodeDefinitionsPaths, hrt, hd, bind, Except.bind, pure, Except.pure]
  exact ⟨trimEndNumeric die, digits, hpaths, hsplit, hdigits, hlast⟩

-- A Type6 MCA header of die 1, and a collateral tree that calls die 1 of its product `io1`.
def io1Header : Header :=
  ⟨⟨2, 6, 0x70, recordTypeMca, false, false⟩, ⟨0, 0⟩, .type6 0 0 0 1 0 0 [] false⟩

def io1Cm : CollateralManager := ⟨fun _ => some ⟨"XYZ", "A0", [(1, "io1")]⟩, fun _ _ => none⟩

example : io1Header.decodeDefinitionsPaths io1Cm = .ok [["decode-defs", "MCA", "io", "2"]] := by
  decide

example : trimEndNumeric "io\u00B2\u0663" = "io" := by decide

-- ---------------------------------------------------------------------------
-- The product key
-- ---------------------------------------------------------------------------

/-- `pvss` fails only for a product id the collateral tree does not know, and
never for product id 0, which stands for every product. -/
theorem pvss_eq_error_iff (h : Header) (cm : CollateralManager) (e : Error) :
    h.pvss cm = .error e ↔
      cm.targetInfo h.productId = none ∧ h.productId ≠ 0 ∧ e = .invalidProductID h.productId := by
  simp only [pvss, product]
  cases cm.targetInfo h.productId <;> by_cases h0 : h.productId = 0 <;>
    simp [h0, bind, Except.bind, pure, Except.pure, @eq_comm _ e]

end Header

end CrashLog
