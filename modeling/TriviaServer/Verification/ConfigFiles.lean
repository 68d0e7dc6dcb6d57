import TriviaServer.Model.ConfigLoader

/-! # What becomes of a config file

The two fields of the file are read one after the other, and each falls back to its default on its
own. But only parse errors are caught, and a port is narrowed before it is tested. -/

namespace TriviaServer

open ConfigLoader

/-! ## Reading a field -/

namespace Json

variable {j : Json}

/-- An object, or the null that turns into one. -/
def takesKeys : Json → Bool
  | .null | .object _ => true
  | _ => false

/-- The integer that a number is. -/
def integer : Json → Option ℤ
  | .numberUnsigned n => some n.toNat
  | .numberInteger n => some n.toInt
  | _ => none

/-- Reading a field leaves the fields of the value as they are. -/
theorem subscript_eq (key : String) (h : j.takesKeys = true) :
    ∃ j', j.subscript key = .ok (j.get key, j') ∧ j'.takesKeys = true ∧
      ∀ key', j'.get key' = j.get key' := by
  cases j with
  | null =>
      refine ⟨_, rfl, rfl, fun key' => ?_⟩
      simp only [get, List.lookup_cons, List.lookup_nil]
      split <;> rfl
  | object fields =>
      cases hfield : fields.lookup key with
      | some value => exact ⟨.object fields, by simp [subscript, get, hfield], rfl, fun _ => rfl⟩
      | none =>
          refine ⟨.object (fields ++ [(key, .null)]), by simp [subscript, get, hfield], rfl,
            fun key' => ?_⟩
          simp only [get, List.lookup_append, List.lookup_cons, List.lookup_nil]
          cases hother : fields.lookup key' with
          | some value => rfl
          | none => split <;> rfl
  | _ => cases h

theorem subscript_eq_error (key : String) (h : j.takesKeys = false) :
    j.subscript key = .error .jsonType := by
  cases j with
  | null | object _ => cases h
  | _ => rfl

/-- An integer is narrowed to its low 32 bits. -/
theorem toInt32_of_integer {n : ℤ} (h : j.integer = some n) :
    ∃ port, j.toInt32 = .ok port ∧ port.toInt = n.bmod (2 ^ 32) := by
  cases j with
  | numberUnsigned m =>
      cases h
      refine ⟨_, rfl, ?_⟩
      change m.toUInt32.toBitVec.toInt = _
      rw [UInt64.toBitVec_toUInt32, BitVec.toInt_setWidth]
      rfl
  | numberInteger m =>
      cases h
      exact ⟨_, rfl, m.toInt_toInt32⟩
  | _ => cases h

theorem isNumberInteger_eq : j.isNumberInteger = j.integer.isSome := by
  cases j <;> rfl

end Json

/-! ## What the file says -/

/-- A port that is out of range is replaced. -/
def usablePort (n : ℤ) : ℤ := if 0 < n ∧ n < 65535 then n else defaultPort.toInt

namespace ConfigFile

/-- The ip of the file if it is a string that is accepted, or else the default. -/
def ip : ConfigFile → String
  | .parsed root =>
      match root.get "ip" with
      | .string ip => if isValidIP ip then ip else defaultIP
      | _ => defaultIP
  | _ => defaultIP

/-- The port of the file if it is an integer in the range, or else the default. -/
def port : ConfigFile → ℤ
  | .parsed root => (root.get "port").integer.elim defaultPort.toInt usablePort
  | _ => defaultPort.toInt

/-- An integer is in the range after it has been narrowed only if it was before, or if it is the
default port then. -/
def PortFits (n : ℤ) : Prop :=
  0 < n % 2 ^ 32 → n % 2 ^ 32 < 65535 → (0 ≤ n ∧ n < 2 ^ 32) ∨ n % 2 ^ 32 = defaultPort.toInt

/-- A value that takes keys, with a port that is not changed by narrowing into another one; or
no value at all, as long as that is not because of a number. -/
def Fits : ConfigFile → Prop
  | .notOpen | .parseError => True
  | .numberOverflow => False
  | .parsed root =>
      root.takesKeys = true ∧ ∀ n, (root.get "port").integer = some n → PortFits n

/-- An endpoint is returned, with the ip and the port of the file or their defaults. -/
def LoadsUsable (file : ConfigFile) : Prop :=
  ∃ endpoint, loadConfig file = .ok endpoint ∧ endpoint.address = file.ip ∧
    endpoint.port.toNat = file.port

end ConfigFile

/-! ## Ports -/

theorem isValidPort_iff {port : Int32} :
    isValidPort port = true ↔ 0 < port.toInt ∧ port.toInt < 65535 := by
  rw [isValidPort, Bool.and_eq_true, decide_eq_true_iff, decide_eq_true_iff,
    Int32.lt_iff_toInt_lt, Int32.lt_iff_toInt_lt]
  rfl

/-- A valid port is not changed by the conversion to 16 bits. -/
theorem toNat_port_new {address : String} {port : Int32} (h : isValidPort port = true) :
    ((Endpoint.new address port).port.toNat : ℤ) = port.toInt := by
  obtain ⟨hlow, hhigh⟩ := isValidPort_iff.mp h
  have hnonneg : 0 ≤ port := Int32.le_iff_toInt_le.mpr hlow.le
  rw [Endpoint.new, UInt32.toNat_toUInt16, Int32.toNat_toUInt32_of_le hnonneg]
  change ((port.toInt.toNat % 2 ^ 16 : ℕ) : ℤ) = port.toInt
  omega

theorem usablePort_bmod_iff {n : ℤ} :
    usablePort (n.bmod (2 ^ 32)) = usablePort n ↔ ConfigFile.PortFits n := by
  have hdefault : defaultPort.toInt = 8826 := rfl
  rw [Int.bmod_def, usablePort, usablePort, ConfigFile.PortFits, hdefault]
  split_ifs <;> omega

/-- The port that a field yields is valid in any case. -/
theorem loadPort_eq (field : Json) : ∃ port, loadPort field = .ok port ∧
    isValidPort port = true ∧
    port.toInt = field.integer.elim defaultPort.toInt fun n => usablePort (n.bmod (2 ^ 32)) := by
  rw [loadPort, Json.isNumberInteger_eq]
  cases hinteger : field.integer with
  | none => exact ⟨defaultPort, rfl, rfl, rfl⟩
  | some n =>
      obtain ⟨port, hport, htoInt⟩ := Json.toInt32_of_integer hinteger
      rw [hport]
      refine ⟨if isValidPort port then port else defaultPort, rfl, ?_⟩
      rw [Option.elim_some, usablePort, ← htoInt]
      by_cases hvalid : isValidPort port = true
      · rw [if_pos hvalid, if_pos (isValidPort_iff.mp hvalid)]
        exact ⟨hvalid, rfl⟩
      · rw [if_neg hvalid, if_neg (mt isValidPort_iff.mpr hvalid)]
        exact ⟨rfl, rfl⟩

theorem loadIP_eq (root : Json) :
    loadIP (root.get "ip") = .ok (ConfigFile.parsed root).ip := by
  rw [ConfigFile.ip]
  cases root.get "ip" <;> rfl

/-- A file that takes keys yields its ip, and its port after narrowing. -/
theorem loadConfig_parsed {root : Json} (h : root.takesKeys = true) :
    ∃ endpoint, loadConfig (.parsed root) = .ok endpoint ∧
      endpoint.address = (ConfigFile.parsed root).ip ∧
      endpoint.port.toNat =
        (root.get "port").integer.elim defaultPort.toInt fun n => usablePort (n.bmod (2 ^ 32)) := by
  obtain ⟨root', hip, hkeys, hfields⟩ := Json.subscript_eq "ip" h
  obtain ⟨root'', hport, -, -⟩ := Json.subscript_eq "port" hkeys
  obtain ⟨port, hloaded, hvalid, htoInt⟩ := loadPort_eq (root.get "port")
  refine ⟨.new (ConfigFile.parsed root).ip port, ?_, rfl, (toNat_port_new hvalid).trans htoInt⟩
  rw [loadConfig, hip]
  simp only [bind, Except.bind, loadIP_eq, hport, hfields, hloaded]
  rfl

/-- The ip that is loaded is accepted in any case, the default too. -/
theorem ConfigFile.isValidIP_ip (file : ConfigFile) : isValidIP file.ip = true := by
  have hdefault : isValidIP defaultIP = true := by decide +kernel
  unfold ip
  split
  · split
    · split
      · assumption
      · exact hdefault
    · exact hdefault
  · exact hdefault

theorem usablePort_inRange (n : ℤ) : 0 < usablePort n ∧ usablePort n < 65535 := by
  unfold usablePort
  split_ifs with h
  · exact h
  · decide

/-- Whatever is in the file, an endpoint that is returned has a valid ip and a valid port. -/
theorem loadConfig_valid {file : ConfigFile} {endpoint : Endpoint}
    (h : loadConfig file = .ok endpoint) :
    isValidIP endpoint.address = true ∧ 0 < endpoint.port ∧ endpoint.port < 65535 := by
  have hvalid (address : String) (port : UInt16) (haddress : address = file.ip)
      (hport : 0 < (port.toNat : ℤ) ∧ (port.toNat : ℤ) < 65535) :
      isValidIP address = true ∧ 0 < port ∧ port < 65535 := by
    refine ⟨haddress ▸ file.isValidIP_ip, UInt16.lt_iff_toNat_lt.mpr ?_,
      UInt16.lt_iff_toNat_lt.mpr ?_⟩
    · exact Int.ofNat_lt.mp hport.1
    · exact Int.ofNat_lt.mp hport.2
  cases file with
  | notOpen | parseError =>
      cases h
      exact hvalid _ _ rfl (by decide)
  | numberOverflow => cases h
  | parsed root =>
      cases hkeys : root.takesKeys with
      | false =>
          rw [loadConfig, Json.subscript_eq_error "ip" hkeys] at h
          cases h
      | true =>
          obtain ⟨endpoint', hendpoint, haddress, hport⟩ := loadConfig_parsed hkeys
          cases h.symm.trans hendpoint
          refine hvalid _ _ haddress (hport ▸ ?_)
          cases (root.get "port").integer with
          | none => decide
          | some n => exact usablePort_inRange _

/-- A file yields its ip and port exactly if no number in it overflows, it takes keys and its
port is not narrowed into another one. -/
theorem loadsUsable_iff (file : ConfigFile) : file.LoadsUsable ↔ file.Fits := by
  cases file with
  | notOpen | parseError => exact iff_of_true ⟨_, rfl, rfl, rfl⟩ trivial
  | numberOverflow =>
      refine iff_of_false ?_ id
      rintro ⟨endpoint, hendpoint, -⟩
      cases hendpoint
  | parsed root =>
      cases hkeys : root.takesKeys with
      | false =>
          refine iff_of_false ?_ fun h => nomatch hkeys.symm.trans h.1
          rintro ⟨endpoint, hendpoint, -⟩
          rw [loadConfig, Json.subscript_eq_error "ip" hkeys] at hendpoint
          cases hendpoint
      | true =>
          obtain ⟨endpoint, hendpoint, haddress, hport⟩ := loadConfig_parsed hkeys
          have hfits : endpoint.port.toNat = (ConfigFile.parsed root).port ↔
              ∀ n, (root.get "port").integer = some n → ConfigFile.PortFits n := by
            rw [hport, ConfigFile.port]
            cases (root.get "port").integer with
            | none => simp
            | some n => simp only [Option.elim_some, Option.some.injEq, forall_eq',
                usablePort_bmod_iff]
          constructor
          · rintro ⟨endpoint', hendpoint', -, hport'⟩
            cases hendpoint.symm.trans hendpoint'
            exact ⟨hkeys, hfits.mp hport'⟩
          · exact fun h => ⟨endpoint, hendpoint, haddress, hfits.mpr h.2⟩

/-- A list in the file ends the server. -/
theorem not_loadsUsable : ¬ ∀ file : ConfigFile, file.LoadsUsable := by
  intro h
  obtain ⟨endpoint, hendpoint, -⟩ := h (.parsed (.array []))
  cases hendpoint

end TriviaServer
