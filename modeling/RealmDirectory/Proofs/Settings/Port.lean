import RealmDirectory.Proofs.Settings.Sources

/-!
# The port that is loaded

A number for the port keeps its low 16 bits before anything looks at it, and what is validated then
is only that these are not all zero. So settings are loaded for every natural number that is no
multiple of `2 ^ 16`: with the number itself as their port if it is one, and with another port if it
is too large. A negative number cannot be converted, and a multiple of `2 ^ 16` is refused for the
port that is left of it.

The number is what the environment says of the port, else what the file says, else the default.
Which number that is and what becomes of it are separate here: the first is `PortGiven`, the second
`loadedWith`.

## Main definitions

* `Settings.PortGiven` — the value that is found for the port.
* `Settings.OthersValid` — the other settings, converted and valid.
* `Settings.PortNarrowed` — what loading makes of a whole number for the port.

## Main results

* `Settings.load_eq_loadedWith` — loading, by the value that is found.
* `Settings.portNarrowed_portVariable` — every number of 64 bits, written in a variable.
* `Settings.load_narrows_port` — whole numbers from any source.
-/

namespace RealmDirectory.Settings

/-! ## The value that is found -/

section Port

variable {environment file : Source} {value : SettingValue}

/-- The value that is found for the port. -/
inductive PortGiven (environment file : Source) : SettingValue → Prop where
  | byEnvironment {value : SettingValue} (spoken : Says environment "registration_port" value) :
      PortGiven environment file value
  | byFile {value : SettingValue} (silent : Silent environment "registration_port")
      (spoken : Says file "registration_port" value) : PortGiven environment file value
  | byDefault (environmentSilent : Silent environment "registration_port")
      (fileSilent : Silent file "registration_port") :
      PortGiven environment file (.whole default.registrationPort.toNat)

private theorem PortGiven.lookup_eq (h : PortGiven environment file value) :
    lookup environment file "registration_port" true = some value ∨
      (lookup environment file "registration_port" true = none ∧
        value = .whole default.registrationPort.toNat) := by
  unfold lookup
  cases h with
  | byEnvironment spoken =>
    rw [said?_eq_some_iff.mpr spoken]
    exact .inl rfl
  | byFile silent spoken =>
    rw [said?_eq_none_iff.mpr silent, said?_eq_some_iff.mpr spoken]
    exact .inl rfl
  | byDefault environmentSilent fileSilent =>
    rw [said?_eq_none_iff.mpr environmentSilent, said?_eq_none_iff.mpr fileSilent]
    exact .inr ⟨rfl, rfl⟩

/-- The port as it is converted from a value. -/
def portOf (value : SettingValue) : Except LoadError UInt16 :=
  match value.asWord? with
  | some n => .ok (UInt16.ofNat n)
  | none => .error (.unconvertible "registration_port")

private theorem PortGiven.convert_eq (h : PortGiven environment file value) :
    convert "registration_port" (·.asWord?.map UInt16.ofNat) default.registrationPort
      (lookup environment file "registration_port" true) = portOf value := by
  rcases h.lookup_eq with hlookup | ⟨hlookup, rfl⟩
  · rw [hlookup]
    simp only [convert, portOf]
    cases value.asWord? with
    | none => rfl
    | some n => rfl
  · rw [hlookup]
    rfl

/-- The settings other than the port, converted and valid. -/
structure OthersValid (environment file : Source) (others : Settings) : Prop where
  bindAddress : convert "bind_address" (·.asText?) default.bindAddress
    (lookup environment file "bind_address" true) = .ok others.bindAddress
  adminAddress : convert "admin_address" (·.asText?.map some) default.adminAddress
    (lookup environment file "admin_address" false) = .ok others.adminAddress
  maxConnections : convert "max_connections" (·.asWord?) default.maxConnections
    (lookup environment file "max_connections" true) = .ok others.maxConnections
  bindAddress_not_blank : isBlank others.bindAddress = false
  adminAddress_not_blank : others.adminAddress.any isBlank = false
  maxConnections_ne_zero : others.maxConnections ≠ 0

/-- Where nothing but the port is set, the other settings have their defaults, and these are
valid. -/
theorem othersValid_default
    (henvironment : ∀ entry ∈ environment, entry.1 = "registration_port")
    (hfile : ∀ entry ∈ file, entry.1 = "registration_port") :
    OthersValid environment file default := by
  have hlookup : ∀ key, "registration_port" ≠ key → ∀ hasDefault,
      lookup environment file key hasDefault = none := by
    intro key hne hasDefault
    unfold lookup
    rw [said?_eq_none (fun entry hmem => henvironment entry hmem ▸ hne),
      said?_eq_none (fun entry hmem => hfile entry hmem ▸ hne)]
    rfl
  refine
    { bindAddress := ?_
      adminAddress := ?_
      maxConnections := ?_
      bindAddress_not_blank := by decide +kernel
      adminAddress_not_blank := rfl
      maxConnections_ne_zero := by decide }
  · rw [hlookup "bind_address" (by decide)]
    rfl
  · rw [hlookup "admin_address" (by decide)]
    rfl
  · rw [hlookup "max_connections" (by decide)]
    rfl

end Port

/-! ## Loading -/

section Loading

variable {file : Option String} {env : List (String × String)} {entries : Toml.Table}
  {others : Settings}

/-- The entries of a settings file; where there is no file, there are none. -/
def entriesOf? : Option String → Option Toml.Table
  | none => some []
  | some text => Toml.parse? text

/-- Settings that are valid but for the port, by the number that is found for it. -/
def loadedWith (others : Settings) : Option Nat → Except LoadError Settings
  | none => .error (.unconvertible "registration_port")
  | some n =>
    if n % 65536 = 0 then .error (.invalid .portZero)
    else .ok { others with registrationPort := UInt16.ofNat n }

private theorem ofNat_eq_zero_iff (n : Nat) : UInt16.ofNat n = 0 ↔ n % 65536 = 0 := by
  rw [← UInt16.toNat_inj, UInt16.toNat_ofNat']
  rfl

/-- With a file that can be read, loading is putting the settings together and looking at them. -/
theorem load_eq_assemble (hentries : entriesOf? file = some entries) :
    load file env =
      (assemble (ofEnvironment env) (ofFile entries) >>= fun settings =>
        match settings.validate with
        | .ok () => .ok settings
        | .error fault => .error (.invalid fault)) := by
  cases file with
  | none =>
    cases hentries
    rfl
  | some text =>
    have hparse : Toml.parse? text = some entries := hentries
    unfold load
    simp only [hparse]
    rfl

private theorem OthersValid.assemble_eq {environment file : Source}
    (hothers : OthersValid environment file others) {value : SettingValue}
    (hgiven : PortGiven environment file value) :
    assemble environment file =
      (portOf value).map fun port => { others with registrationPort := port } := by
  unfold assemble
  simp only [hothers.bindAddress, hgiven.convert_eq, hothers.adminAddress, hothers.maxConnections]
  cases portOf value with
  | error cause => rfl
  | ok port => rfl

private theorem OthersValid.validate_eq {environment file : Source}
    (hothers : OthersValid environment file others) (port : UInt16) :
    ({ others with registrationPort := port } : Settings).validate =
      if port = 0 then .error .portZero else .ok () := by
  unfold validate
  simp only [hothers.bindAddress_not_blank, hothers.adminAddress_not_blank,
    hothers.maxConnections_ne_zero, Bool.false_eq_true, if_false]

/-- Whatever is found for the port, its low 16 bits are all that counts. -/
theorem load_eq_loadedWith (hentries : entriesOf? file = some entries) {value : SettingValue}
    (hgiven : PortGiven (ofEnvironment env) (ofFile entries) value)
    (hothers : OthersValid (ofEnvironment env) (ofFile entries) others) :
    load file env = loadedWith others value.asWord? := by
  rw [load_eq_assemble hentries, hothers.assemble_eq hgiven]
  unfold portOf
  cases value.asWord? with
  | none => rfl
  | some n =>
    have hvalidate := hothers.validate_eq (UInt16.ofNat n)
    -- What is validated is the narrowed port: the number itself is gone by then.
    show (match ({ others with registrationPort := UInt16.ofNat n } : Settings).validate with
      | .ok () => _
      | .error fault => _) = loadedWith others (some n)
    unfold loadedWith
    by_cases hzero : n % 65536 = 0
    · rw [if_pos ((ofNat_eq_zero_iff n).mpr hzero)] at hvalidate
      rw [hvalidate]
      exact (if_pos hzero).symm
    · rw [if_neg (mt (ofNat_eq_zero_iff n).mp hzero)] at hvalidate
      rw [hvalidate]
      exact (if_neg hzero).symm

/-! ## Whole numbers -/

/-- What loading makes of a whole number that is found for the port. -/
structure PortNarrowed (others : Settings) (v : Int) (loaded : Except LoadError Settings) :
    Prop where
  /-- The port is the low 16 bits of the number, and only they must not be zero. -/
  loaded_iff : ∀ settings, loaded = .ok settings ↔ 0 ≤ v ∧ ¬ 65536 ∣ v ∧
    settings = { others with registrationPort := UInt16.ofNat v.toNat }
  /-- The numbers of ports are kept. -/
  kept_iff : (∃ settings, loaded = .ok settings ∧ (settings.registrationPort.toNat : Int) = v) ↔
    1 ≤ v ∧ v ≤ 65535
  /-- Greater numbers are loaded as another port. -/
  changed_iff : (∃ settings, loaded = .ok settings ∧ (settings.registrationPort.toNat : Int) ≠ v) ↔
    65536 < v ∧ ¬ 65536 ∣ v
  negative : v < 0 → loaded = .error (.unconvertible "registration_port")
  multiple : 0 ≤ v → 65536 ∣ v → loaded = .error (.invalid .portZero)

private theorem loadedWith_negative {v : Int} (hneg : v < 0) :
    loadedWith others (SettingValue.whole v).asWord? =
      .error (.unconvertible "registration_port") := by
  have hword : (SettingValue.whole v).asWord? = none := if_pos hneg
  rw [hword]
  rfl

private theorem loadedWith_natural {v : Int} (hnonneg : 0 ≤ v) :
    loadedWith others (SettingValue.whole v).asWord? =
      if v.toNat % 65536 = 0 then .error (.invalid .portZero)
      else .ok { others with registrationPort := UInt16.ofNat v.toNat } := by
  have hword : (SettingValue.whole v).asWord? = some v.toNat := if_neg (Int.not_lt.mpr hnonneg)
  rw [hword]
  rfl

/-- A port is loaded as its residue, unless that is zero or the number is negative. -/
theorem loadedWith_eq_ok_iff {v : Int} {settings : Settings} :
    loadedWith others (SettingValue.whole v).asWord? = .ok settings ↔ 0 ≤ v ∧ ¬ 65536 ∣ v ∧
      settings = { others with registrationPort := UInt16.ofNat v.toNat } := by
  by_cases hnonneg : 0 ≤ v
  · rw [loadedWith_natural hnonneg]
    by_cases hzero : v.toNat % 65536 = 0
    · rw [if_pos hzero]
      constructor
      · exact fun hloaded => nomatch hloaded
      · rintro ⟨-, hdvd, -⟩
        omega
    · rw [if_neg hzero, Except.ok.injEq]
      constructor
      · intro heq
        exact ⟨hnonneg, by omega, heq.symm⟩
      · rintro ⟨-, -, heq⟩
        exact heq.symm
  · rw [loadedWith_negative (Int.not_le.mp hnonneg)]
    constructor
    · exact fun hloaded => nomatch hloaded
    · rintro ⟨hle, -⟩
      exact absurd hle hnonneg

/-- Whatever the number, it is narrowed first, and what is left of it is looked at. -/
theorem portNarrowed_loadedWith (others : Settings) (v : Int) :
    PortNarrowed others v (loadedWith others (SettingValue.whole v).asWord?) where
  loaded_iff := fun settings => loadedWith_eq_ok_iff
  kept_iff := by
    simp only [loadedWith_eq_ok_iff]
    constructor
    · rintro ⟨settings, ⟨hnonneg, hdvd, rfl⟩, hport⟩
      rw [UInt16.toNat_ofNat'] at hport
      omega
    · rintro ⟨hpos, hle⟩
      refine ⟨_, ⟨by omega, by omega, rfl⟩, ?_⟩
      rw [UInt16.toNat_ofNat']
      omega
  changed_iff := by
    simp only [loadedWith_eq_ok_iff]
    constructor
    · rintro ⟨settings, ⟨hnonneg, hdvd, rfl⟩, hport⟩
      rw [UInt16.toNat_ofNat'] at hport
      omega
    · rintro ⟨hgt, hdvd⟩
      refine ⟨_, ⟨by omega, hdvd, rfl⟩, ?_⟩
      rw [UInt16.toNat_ofNat']
      omega
  negative := loadedWith_negative
  multiple := by
    intro hnonneg hdvd
    rw [loadedWith_natural hnonneg]
    exact if_pos (by omega)

end Loading

/-! ## The variable of the port -/

/-- An environment that sets nothing but the port. -/
def portVariable (text : String) : List (String × String) :=
  [("REALM_REGISTRY_REGISTRATION_PORT", text)]

private theorem ofEnvironment_portVariable (text : String) :
    ofEnvironment (portVariable text) = [("registration_port", .ofVariable text)] := by
  have hhead : variableHead.toList.isPrefixOf
      ("REALM_REGISTRY_REGISTRATION_PORT".toList.map lowerLetter) = true := by decide +kernel
  have hname : String.ofList (("REALM_REGISTRY_REGISTRATION_PORT".toList.map lowerLetter).drop
      variableHead.toList.length) = "registration_port" := by decide +kernel
  have htarget : SettingPath.target "registration_port" = ("registration_port", false) := by
    decide +kernel
  simp only [ofEnvironment, portVariable, List.filterMap_cons, List.filterMap_nil, hhead, hname,
    if_true, place, htarget]

private theorem portGiven_portVariable {text : String} {v : Int}
    (h : SettingValue.ofVariable text = .whole v) :
    PortGiven (ofEnvironment (portVariable text)) [] (.whole v) := by
  rw [ofEnvironment_portVariable, h]
  exact .byEnvironment ⟨[], [], rfl, nofun, nofun⟩

private theorem othersValid_portVariable (text : String) :
    OthersValid (ofEnvironment (portVariable text)) [] default := by
  rw [ofEnvironment_portVariable]
  exact othersValid_default (fun entry hmem => by cases List.mem_singleton.mp hmem; rfl) nofun

/-- Every number of 64 bits, as it is written in the variable of the port. -/
theorem portNarrowed_portVariable {v : Int}
    (hmin : -9223372036854775808 ≤ v) (hmax : v < 9223372036854775808) :
    PortNarrowed default v (load none (portVariable (toString v))) := by
  have hgiven := portGiven_portVariable (SettingValue.ofVariable_toString hmin hmax)
  rw [load_eq_loadedWith rfl hgiven (othersValid_portVariable _)]
  exact portNarrowed_loadedWith default v

/-! ## Any sources -/

/-- Only the numbers of ports are loaded as they are, and of the numbers above them only the
multiples of `2 ^ 16` are refused. -/
theorem load_narrows_port {file : Option String} {env : List (String × String)}
    {entries : Toml.Table} {others : Settings} {v : Int}
    (hentries : entriesOf? file = some entries)
    (hgiven : PortGiven (ofEnvironment env) (ofFile entries) (.whole v))
    (hothers : OthersValid (ofEnvironment env) (ofFile entries) others) :
    PortNarrowed others v (load file env) := by
  rw [load_eq_loadedWith hentries hgiven hothers]
  exact portNarrowed_loadedWith others v

/-- A port, a number that is too large by one, a negative number, and no number at all. -/
theorem load_narrows_port_fourStarts :
    load none (portVariable "8085") = .ok { default with registrationPort := 8085 } ∧
      load none (portVariable "65536") = .error (.invalid .portZero) ∧
      load none (portVariable "-1") = .error (.unconvertible "registration_port") ∧
      load none [] = .ok default := by
  have hnone : entriesOf? none = some [] := rfl
  have hport := load_narrows_port hnone
    (portGiven_portVariable (by decide +kernel : SettingValue.ofVariable "8085" = .whole 8085))
    (othersValid_portVariable "8085")
  have hlarge := load_narrows_port hnone
    (portGiven_portVariable (by decide +kernel : SettingValue.ofVariable "65536" = .whole 65536))
    (othersValid_portVariable "65536")
  have hnegative := load_narrows_port hnone
    (portGiven_portVariable (by decide +kernel : SettingValue.ofVariable "-1" = .whole (-1)))
    (othersValid_portVariable "-1")
  have hdefault : PortGiven (ofEnvironment []) (ofFile []) (.whole 3444) := .byDefault nofun nofun
  have hsilent := load_narrows_port hnone hdefault (othersValid_default nofun nofun)
  refine ⟨?_, ?_, ?_, ?_⟩
  · exact (hport.loaded_iff _).mpr ⟨by decide, by decide, rfl⟩
  · exact hlarge.multiple (by decide) (by decide)
  · exact hnegative.negative (by decide)
  · exact (hsilent.loaded_iff _).mpr ⟨by decide, by decide, rfl⟩

/-- The file says 70000, which is no port, and settings are loaded with the port 4464. -/
theorem loaded_with_another_port :
    ∃ entries, entriesOf? (some "registration_port = 70000\n") = some entries ∧
      PortGiven (ofEnvironment []) (ofFile entries) (.whole 70000) ∧
      OthersValid (ofEnvironment []) (ofFile entries) default ∧
      load (some "registration_port = 70000\n") [] =
        .ok { default with registrationPort := 4464 } ∧
      ¬ (1 ≤ (70000 : Int) ∧ (70000 : Int) ≤ 65535) := by
  have hsome : (entriesOf? (some "registration_port = 70000\n")).isSome := by decide +kernel
  obtain ⟨entries, hentries⟩ := Option.isSome_iff_exists.mp hsome
  have hfile : (entriesOf? (some "registration_port = 70000\n")).map ofFile =
      some [("registration_port", .whole 70000)] := by decide +kernel
  rw [hentries] at hfile
  have hsource : ofFile entries = [("registration_port", .whole 70000)] := Option.some.inj hfile
  have hgiven : PortGiven (ofEnvironment []) (ofFile entries) (.whole 70000) := by
    rw [hsource]
    exact .byFile nofun ⟨[], [], rfl, nofun, nofun⟩
  have hothers : OthersValid (ofEnvironment []) (ofFile entries) default := by
    rw [hsource]
    exact othersValid_default nofun fun entry hmem => by cases List.mem_singleton.mp hmem; rfl
  refine ⟨entries, hentries, hgiven, hothers, ?_, by decide⟩
  rw [load_eq_loadedWith hentries hgiven hothers]
  exact loadedWith_eq_ok_iff.mpr ⟨by decide, by decide, rfl⟩

end RealmDirectory.Settings
