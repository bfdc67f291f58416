/-!
# Objects of the platform

The components that `CreateObject` can make, with the numbers of arguments that their
constructors take. The name of the component is not counted. A component that has gone out of
use carries a note on what to use in its place.
-/

namespace ScopeCheck

/-- A component that `CreateObject` can make. -/
structure PlatformObject where
  /-- The name as the platform documents it. -/
  name : String
  /-- The accepted numbers of arguments, in the order in which they are listed. -/
  arities : List Nat
  /-- For a component that has gone out of use, what to do about it. -/
  deprecation : Option String
deriving DecidableEq, Repr

/-- Whether a constructor call with so many arguments is accepted. -/
def PlatformObject.accepts (object : PlatformObject) (count : Nat) : Bool :=
  object.arities.contains count

/-- The note on screens of the first generation. -/
def screensRemoved : Option String :=
  some "SDK1 screens were removed from Roku OS; use SceneGraph components instead"

/-- The note on reading audio tags. -/
def readTagsOnServer : Option String :=
  some "roAudioMetadata is deprecated; read tags on the server instead"

/-- Every component that `CreateObject` can make. -/
def platformObjects : List PlatformObject :=
  [⟨"roAppInfo", [0], none⟩, ⟨"roAppManager", [0], none⟩, ⟨"roArray", [2], none⟩,
   ⟨"roAssociativeArray", [0], none⟩, ⟨"roAudioGuide", [0], none⟩,
   ⟨"roAudioMetadata", [0], readTagsOnServer⟩, ⟨"roAudioPlayer", [0], none⟩,
   ⟨"roAudioResource", [1], none⟩, ⟨"roBitmap", [1], none⟩, ⟨"roBoolean", [0], none⟩,
   ⟨"roByteArray", [0], none⟩, ⟨"roCECStatus", [0], none⟩, ⟨"roChannelStore", [0], none⟩,
   ⟨"roCodeRegistrationScreen", [0], screensRemoved⟩, ⟨"roCompositor", [0], none⟩,
   ⟨"roDateTime", [0], none⟩, ⟨"roDeviceCrypto", [0], none⟩, ⟨"roDeviceInfo", [0], none⟩,
   ⟨"roDouble", [0], none⟩, ⟨"roEVPCipher", [0], none⟩, ⟨"roEVPDigest", [0], none⟩,
   ⟨"roFileSystem", [0], none⟩, ⟨"roFloat", [0], none⟩, ⟨"roFontRegistry", [0], none⟩,
   ⟨"roFunction", [0], none⟩, ⟨"roGridScreen", [0], screensRemoved⟩, ⟨"roHdmiStatus", [0], none⟩,
   ⟨"roHMAC", [0], none⟩, ⟨"roHttpAgent", [0], none⟩, ⟨"roImageCanvas", [0], screensRemoved⟩,
   ⟨"roImageMetadata", [0], none⟩, ⟨"roInput", [0], none⟩, ⟨"roInt", [0], none⟩,
   ⟨"roInvalid", [0], none⟩, ⟨"roKeyboardScreen", [0], screensRemoved⟩, ⟨"roList", [0], none⟩,
   ⟨"roListScreen", [0], screensRemoved⟩, ⟨"roLocalization", [0], none⟩,
   ⟨"roLongInteger", [0], none⟩, ⟨"roMessageDialog", [0], screensRemoved⟩,
   ⟨"roMessagePort", [0], none⟩, ⟨"roOneLineDialog", [0], screensRemoved⟩,
   ⟨"roParagraphScreen", [0], screensRemoved⟩, ⟨"roPath", [1], none⟩,
   ⟨"roPinEntryDialog", [0], screensRemoved⟩, ⟨"roPosterScreen", [0], screensRemoved⟩,
   ⟨"roRegex", [2], none⟩, ⟨"roRegion", [5], none⟩, ⟨"roRegistry", [0], none⟩,
   ⟨"roRegistrySection", [1], none⟩, ⟨"roRemoteInfo", [0], none⟩, ⟨"roScreen", [0, 1, 3], none⟩,
   ⟨"roSearchHistory", [0], screensRemoved⟩, ⟨"roSearchScreen", [0], screensRemoved⟩,
   ⟨"roSGNode", [1], none⟩, ⟨"roSGScreen", [0], none⟩, ⟨"roSlideShow", [0], screensRemoved⟩,
   ⟨"roSocketAddress", [0], none⟩, ⟨"roSpringboardScreen", [0], screensRemoved⟩,
   ⟨"roStreamSocket", [0], none⟩, ⟨"roString", [0], none⟩, ⟨"roSystemLog", [0], none⟩,
   ⟨"roTextScreen", [0], screensRemoved⟩, ⟨"roTextToSpeech", [0], none⟩,
   ⟨"roTimespan", [0], none⟩, ⟨"roUrlTransfer", [0], none⟩, ⟨"roVideoPlayer", [0], none⟩,
   ⟨"roVideoScreen", [0], screensRemoved⟩, ⟨"roXMLElement", [0], none⟩, ⟨"roXMLList", [0], none⟩]

end ScopeCheck
