import RealmDirectory.Frame
/-!
# The opcodes of the two channels

A realm server and the directory exchange envelopes, whose opcodes are dense from 0 to 10 and
whose length field has two bytes. The admin session receives frames with one of four opcodes and a
length field of four bytes, wide enough for a batch of log lines.
-/

namespace RealmDirectory

/-- The opcodes between a realm server and the directory. -/
inductive RealmOpcode where
  | nullAction
  | registeringRequest
  | userConfirmationRequest
  | securityLevelUpdate
  | populationUpdate
  | statusUpdate
  | registrationResponse
  | userConfirmationResponse
  | securityLevelResponse
  | logMessage
  | heartbeat
  deriving DecidableEq, Repr

namespace RealmOpcode

/-- Every opcode, in the order of the codes. -/
def all : List RealmOpcode :=
  [.nullAction, .registeringRequest, .userConfirmationRequest, .securityLevelUpdate,
    .populationUpdate, .statusUpdate, .registrationResponse, .userConfirmationResponse,
    .securityLevelResponse, .logMessage, .heartbeat]

/-- The code of an opcode is its place in `all`. -/
def code : RealmOpcode → UInt8
  | nullAction => 0
  | registeringRequest => 1
  | userConfirmationRequest => 2
  | securityLevelUpdate => 3
  | populationUpdate => 4
  | statusUpdate => 5
  | registrationResponse => 6
  | userConfirmationResponse => 7
  | securityLevelResponse => 8
  | logMessage => 9
  | heartbeat => 10

/-- The name used in log lines. -/
def wireName : RealmOpcode → String
  | nullAction => "MSG_NULL_ACTION"
  | registeringRequest => "SMSG_REGISTERING_REQUEST"
  | userConfirmationRequest => "SMSG_USER_CONFIRMATION_REQUEST"
  | securityLevelUpdate => "SMSG_SECURITY_LEVEL_UPDATE"
  | populationUpdate => "SMSG_POPULATION_UPDATE"
  | statusUpdate => "SMSG_STATUS_UPDATE"
  | registrationResponse => "RMSG_REGISTRATION_RESPONSE"
  | userConfirmationResponse => "RMSG_USER_CONFIRMATION_RESPONSE"
  | securityLevelResponse => "RMSG_SECURITY_LEVEL_RESPONSE"
  | logMessage => "SMSG_LOG_MESSAGE"
  | heartbeat => "MSG_HEARTBEAT_COMMAND"

/-- The plain name. -/
def name : RealmOpcode → String
  | nullAction => "NullAction"
  | registeringRequest => "RegisteringRequest"
  | userConfirmationRequest => "UserConfirmationRequest"
  | securityLevelUpdate => "SecurityLevelUpdate"
  | populationUpdate => "PopulationUpdate"
  | statusUpdate => "StatusUpdate"
  | registrationResponse => "RegistrationResponse"
  | userConfirmationResponse => "UserConfirmationResponse"
  | securityLevelResponse => "SecurityLevelResponse"
  | logMessage => "LogMessage"
  | heartbeat => "Heartbeat"

theorem getElem?_all_code (o : RealmOpcode) : all[o.code.toNat]? = some o := by cases o <;> rfl

theorem code_of_getElem?_all {b : UInt8} {o : RealmOpcode} (h : all[b.toNat]? = some o) :
    o.code = b := by
  have hlt : b.toNat < 11 := by
    have := (List.getElem?_eq_some_iff.mp h).1
    simpa [all] using this
  have hb : b = UInt8.ofNat b.toNat := by simp
  generalize b.toNat = n at h hlt hb
  subst hb
  match n with
  | 0 | 1 | 2 | 3 | 4 | 5 | 6 | 7 | 8 | 9 | 10 => cases h; rfl
  | n + 11 => omega

end RealmOpcode

instance : Opcodes RealmOpcode where
  code := RealmOpcode.code
  ofCode? b := RealmOpcode.all[b.toNat]?
  lengthWidth := 2
  ofCode?_eq_some_iff := by
    intro b o
    constructor
    · exact RealmOpcode.code_of_getElem?_all
    · rintro rfl
      exact RealmOpcode.getElem?_all_code o

/-- The opcodes sent to the admin session. -/
inductive AdminOpcode where
  | realmList
  | realmAdded
  | realmStatus
  | logBatch
  deriving DecidableEq, Repr

namespace AdminOpcode

/-- The code of an opcode. -/
def code : AdminOpcode → UInt8
  | realmList => 1
  | realmAdded => 2
  | realmStatus => 3
  | logBatch => 4

/-- The opcode of a code. -/
def ofCode? (b : UInt8) : Option AdminOpcode :=
  [realmList, realmAdded, realmStatus, logBatch].find? (fun o => o.code == b)

/-- The plain name. -/
def name : AdminOpcode → String
  | realmList => "RealmList"
  | realmAdded => "RealmAdded"
  | realmStatus => "RealmStatus"
  | logBatch => "LogBatch"

end AdminOpcode

instance : Opcodes AdminOpcode where
  code := AdminOpcode.code
  ofCode? := AdminOpcode.ofCode?
  lengthWidth := 4
  ofCode?_eq_some_iff := by
    intro b o
    constructor
    · intro h
      simpa using List.find?_some h
    · rintro rfl
      cases o <;> rfl

/-- The opcode of a byte, or the framing fault it would cause. -/
def Opcodes.check (op : Type) [Opcodes op] (b : UInt8) : Except FrameError op :=
  match Opcodes.ofCode? b with
  | some o => .ok o
  | none => .error (.unknownOpcode b)

/-- One unit between a realm server and the directory. -/
abbrev Envelope := Frame RealmOpcode

/-- One unit sent to the admin session. -/
abbrev AdminFrame := Frame AdminOpcode

/-- The envelope without payload that keeps a silent connection alive. -/
def Envelope.heartbeat : Envelope := ⟨.heartbeat, []⟩

end RealmDirectory
