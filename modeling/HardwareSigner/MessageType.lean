/-!
# Message types

A frame names the message inside it by a 16-bit code. The registered codes have a constructor
each; any other code is kept as it is, so that reading a code and writing it again changes nothing:

> `MessageType.code_ofCode`: the type found for a code carries that code.
-/

namespace HardwareSigner

/-- What kind of message a frame carries. -/
inductive MessageType
  | startSession | ping | success | failure | changePin | wipeDevice | firmwareErase
  | firmwareUpload | getEntropy | entropy | getPublicKey | publicKey | loadDevice | resetDevice
  | signTx | simpleSignTx | features | pinMatrixRequest | pinMatrixAck | cancel | txRequest | txAck
  | cipherKeyValue | clearSession | applySettings | buttonRequest | buttonAck | getAddress | address
  | entropyRequest | entropyAck | signMessage | verifyMessage | messageSignature
  | passphraseRequest | passphraseAck | debugLinkDecision | debugLinkGetState | debugLinkState
  | debugLinkStop | debugLinkLog
  /-- A code that is not registered. -/
  | unknown (code : UInt16)
  deriving DecidableEq, Repr

namespace MessageType

/-- Every registered type, by ascending code. -/
def registered : List MessageType :=
  [.startSession, .ping, .success, .failure, .changePin, .wipeDevice, .firmwareErase,
   .firmwareUpload, .getEntropy, .entropy, .getPublicKey, .publicKey, .loadDevice, .resetDevice,
   .signTx, .simpleSignTx, .features, .pinMatrixRequest, .pinMatrixAck, .cancel, .txRequest, .txAck,
   .cipherKeyValue, .clearSession, .applySettings, .buttonRequest, .buttonAck, .getAddress,
   .address, .entropyRequest, .entropyAck, .signMessage, .verifyMessage, .messageSignature,
   .passphraseRequest, .passphraseAck, .debugLinkDecision, .debugLinkGetState, .debugLinkState,
   .debugLinkStop, .debugLinkLog]

/-- The code and the protocol name of a type. -/
def entry : MessageType → UInt16 × String
  | .startSession => (0, "INITIALIZE")
  | .ping => (1, "PING")
  | .success => (2, "SUCCESS")
  | .failure => (3, "FAILURE")
  | .changePin => (4, "CHANGE_PIN")
  | .wipeDevice => (5, "WIPE_DEVICE")
  | .firmwareErase => (6, "FIRMWARE_ERASE")
  | .firmwareUpload => (7, "FIRMWARE_UPLOAD")
  | .getEntropy => (9, "GET_ENTROPY")
  | .entropy => (10, "ENTROPY")
  | .getPublicKey => (11, "GET_PUBLIC_KEY")
  | .publicKey => (12, "PUBLIC_KEY")
  | .loadDevice => (13, "LOAD_DEVICE")
  | .resetDevice => (14, "RESET_DEVICE")
  | .signTx => (15, "SIGN_TX")
  | .simpleSignTx => (16, "SIMPLE_SIGN_TX")
  | .features => (17, "FEATURES")
  | .pinMatrixRequest => (18, "PIN_MATRIX_REQUEST")
  | .pinMatrixAck => (19, "PIN_MATRIX_ACK")
  | .cancel => (20, "CANCEL")
  | .txRequest => (21, "TX_REQUEST")
  | .txAck => (22, "TX_ACK")
  | .cipherKeyValue => (23, "CIPHER_KEY_VALUE")
  | .clearSession => (24, "CLEAR_SESSION")
  | .applySettings => (25, "APPLY_SETTINGS")
  | .buttonRequest => (26, "BUTTON_REQUEST")
  | .buttonAck => (27, "BUTTON_ACK")
  | .getAddress => (29, "GET_ADDRESS")
  | .address => (30, "ADDRESS")
  | .entropyRequest => (35, "ENTROPY_REQUEST")
  | .entropyAck => (36, "ENTROPY_ACK")
  | .signMessage => (38, "SIGN_MESSAGE")
  | .verifyMessage => (39, "VERIFY_MESSAGE")
  | .messageSignature => (40, "MESSAGE_SIGNATURE")
  | .passphraseRequest => (41, "PASSPHRASE_REQUEST")
  | .passphraseAck => (42, "PASSPHRASE_ACK")
  | .debugLinkDecision => (100, "DEBUG_LINK_DECISION")
  | .debugLinkGetState => (101, "DEBUG_LINK_GET_STATE")
  | .debugLinkState => (102, "DEBUG_LINK_STATE")
  | .debugLinkStop => (103, "DEBUG_LINK_STOP")
  | .debugLinkLog => (104, "DEBUG_LINK_LOG")
  | .unknown code => (code, "UNKNOWN")

/-- The code written into a frame header. -/
def code (t : MessageType) : UInt16 := t.entry.1

/-- The protocol's name for the type. -/
def name (t : MessageType) : String := t.entry.2

/-- The type that a header code announces. -/
def ofCode (code : UInt16) : MessageType :=
  (registered.find? (fun t => t.code = code)).getD (.unknown code)

def isUnknown : MessageType → Bool
  | .unknown _ => true
  | _ => false

/-- The name, with the code in brackets if that is all there is to know. -/
def display (t : MessageType) : String :=
  match t with
  | .unknown code => s!"UNKNOWN({code})"
  | t => t.name

/-- The words of a name run together, each with a capital: `SIGN_TX` gives `SignTx`. -/
def joinWords (name : String) : String :=
  String.join ((name.splitOn "_").map fun word =>
    match word.toList with
    | [] => ""
    | first :: rest => String.ofList (first.toUpper :: rest.map Char.toLower))

/-- The name in running text: `SignTx`, `Unknown(8)`. -/
def label (t : MessageType) : String :=
  match t with
  | .unknown code => s!"Unknown({code})"
  | t => joinWords t.name

theorem code_ofCode (code : UInt16) : (ofCode code).code = code := by
  unfold ofCode
  cases h : registered.find? (fun t => t.code = code) with
  | none => rfl
  | some t => simpa using List.find?_some h

/-- A registered type is found under its own code. -/
theorem ofCode_code_of_registered : ∀ t ∈ registered, ofCode t.code = t := by decide

end MessageType

end HardwareSigner
