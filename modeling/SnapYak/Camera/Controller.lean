import Mathlib.Data.Int.Notation
import SnapYak.Machine.Throwing
import SnapYak.Store.Storage

/-!
# The camera controller

`CameraController` owns a capture session. It is prepared once, then switched between the front and
the rear camera, and takes photos (`CameraController.swift`). Its methods throw in many places and
keep what they have changed until then (`CameraM`, `Throwing.result`).

What AVFoundation decides is an argument: the cameras there are, whether one can be locked, whether
an input can be created for a camera, and whether the session accepts it. The inputs of a session
are objects and are compared by identity.

A photo is asked for by `captureImage` and arrives in `photoOutput`, a callback of AVFoundation.

The focus of the cameras, the flash, the preview and the settings of a photo are left out.

## Main definitions

* `AVCaptureSession` : the attached inputs, and the configurations that are open.
* `CameraController`, `CameraM` : the controller and its computations.
* `CameraController.prepare`, `switchCameras`, `captureImage`, `photoOutput` : its methods.
-/

namespace SnapYak

/-! ### The session -/

/-- `AVCaptureDevice.Position`. -/
inductive DevicePosition
  | unspecified
  | back
  | front
deriving DecidableEq

/-- A camera. -/
structure AVCaptureDevice where
  uniqueID : ℕ
  position : DevicePosition
deriving DecidableEq

/-- An input of a session, an object. -/
structure AVCaptureDeviceInput where
  identity : ℕ
  device : AVCaptureDevice
deriving DecidableEq

/-- A capture session. -/
structure AVCaptureSession where
  inputs : List AVCaptureDeviceInput
  /-- The calls of `beginConfiguration()` that no `commitConfiguration()` has followed. -/
  openConfigurations : ℕ
  isRunning : Bool
deriving DecidableEq

namespace AVCaptureSession

/-- A new session. -/
def new : AVCaptureSession := ⟨[], 0, false⟩

/-- `addInput(_:)`. -/
def addInput (input : AVCaptureDeviceInput) (session : AVCaptureSession) : AVCaptureSession :=
  { session with inputs := session.inputs ++ [input] }

/-- `removeInput(_:)`. -/
def removeInput (input : AVCaptureDeviceInput) (session : AVCaptureSession) : AVCaptureSession :=
  { session with inputs := session.inputs.filter (· ≠ input) }

/-- `beginConfiguration()`. -/
def beginConfiguration (session : AVCaptureSession) : AVCaptureSession :=
  { session with openConfigurations := session.openConfigurations + 1 }

/-- `commitConfiguration()`. -/
def commitConfiguration (session : AVCaptureSession) : AVCaptureSession :=
  { session with openConfigurations := session.openConfigurations - 1 }

/-- `startRunning()`. -/
def startRunning (session : AVCaptureSession) : AVCaptureSession :=
  { session with isRunning := true }

end AVCaptureSession

/-! ### The controller -/

/-- `CameraController.CameraPosition`. -/
inductive CameraPosition
  | front
  | rear
deriving DecidableEq

/-- The position that is switched to. -/
def CameraPosition.other : CameraPosition → CameraPosition
  | front => rear
  | rear => front

/-- `CameraController.CameraControllerError`, and the errors of AVFoundation. -/
inductive CameraError
  | captureSessionAlreadyRunning
  | captureSessionIsMissing
  | inputsAreInvalid
  | invalidOperation
  | noCamerasAvailable
  | unknown
  | platform (code : ℤ)
deriving DecidableEq

/-- The controller; `κ` is the type of the completions handed to `captureImage`. -/
structure CameraController (κ : Type) where
  captureSession : Option AVCaptureSession
  currentCameraPosition : Option CameraPosition
  frontCamera : Option AVCaptureDevice
  frontCameraInput : Option AVCaptureDeviceInput
  /-- Whether `photoOutput` is set. -/
  hasPhotoOutput : Bool
  rearCamera : Option AVCaptureDevice
  rearCameraInput : Option AVCaptureDeviceInput
  photoCaptureCompletion : Option κ
deriving DecidableEq

/-- A throwing method of the controller. What it changes before it throws stays changed. -/
abbrev CameraM (κ : Type) := ExceptT CameraError (StateM (CameraController κ))

namespace CameraController

variable {κ : Type}

/-- A new controller. -/
def new : CameraController κ := ⟨none, none, none, none, false, none, none, none⟩

/-- The camera at a position. -/
def camera (c : CameraController κ) : CameraPosition → Option AVCaptureDevice
  | .front => c.frontCamera
  | .rear => c.rearCamera

/-- The stored input of the camera at a position. -/
def cameraInput (c : CameraController κ) : CameraPosition → Option AVCaptureDeviceInput
  | .front => c.frontCameraInput
  | .rear => c.rearCameraInput

/-- The assignment to `frontCameraInput`, respectively `rearCameraInput`. -/
def setCameraInput (c : CameraController κ) (position : CameraPosition)
    (input : AVCaptureDeviceInput) : CameraController κ :=
  match position with
  | .front => { c with frontCameraInput := some input }
  | .rear => { c with rearCameraInput := some input }

/-- A method of the session of the controller. -/
def modifySession (f : AVCaptureSession → AVCaptureSession) : CameraM κ Unit :=
  modify fun c => { c with captureSession := c.captureSession.map f }

/-- What AVFoundation decides when an input is attached: the identity of the input that is created,
or the error of its creation; and whether the session accepts it. -/
structure Attachment where
  creation : Except CameraError ℕ
  canAddInput : Bool
deriving DecidableEq

/-- `AVCaptureDeviceInput(device:)`. -/
def createInput (o : Attachment) (device : AVCaptureDevice) : CameraM κ AVCaptureDeviceInput :=
  match o.creation with
  | .ok identity => pure ⟨identity, device⟩
  | .error e => throw e

/-! ### Preparation -/

/-- The loop of `configureCaptureDevices()`. -/
def configureCameras (lockForConfiguration : AVCaptureDevice → Option CameraError) :
    List AVCaptureDevice → CameraM κ Unit
  | [] => pure ()
  | camera :: cameras => do
    match camera.position with
    | .front => modify fun c => { c with frontCamera := some camera }
    | .back => do
      modify fun c => { c with rearCamera := some camera }
      match lockForConfiguration camera with
      | some e => throw e
      | none => pure ()
    | .unspecified => pure ()
    configureCameras lockForConfiguration cameras

/-- `configureCaptureDevices()`. -/
def configureCaptureDevices (lockForConfiguration : AVCaptureDevice → Option CameraError)
    (cameras : List AVCaptureDevice) : CameraM κ Unit := do
  if cameras.isEmpty then throw .noCamerasAvailable
  configureCameras lockForConfiguration cameras

/-- `configureDeviceInputs()`. A rear input that the session refuses is passed over in silence. -/
def configureDeviceInputs (o : Attachment) : CameraM κ Unit := do
  if (← get).captureSession.isNone then throw .captureSessionIsMissing
  match (← get).rearCamera, (← get).frontCamera with
  | some rearCamera, _ => do
    let input ← createInput o rearCamera
    modify (·.setCameraInput .rear input)
    if o.canAddInput then modifySession (·.addInput input)
    modify fun c => { c with currentCameraPosition := some .rear }
  | none, some frontCamera => do
    let input ← createInput o frontCamera
    modify (·.setCameraInput .front input)
    if o.canAddInput then modifySession (·.addInput input) else throw .inputsAreInvalid
    modify fun c => { c with currentCameraPosition := some .front }
  | none, none => throw .noCamerasAvailable

/-- `configurePhotoOutput()`. -/
def configurePhotoOutput : CameraM κ Unit := do
  if (← get).captureSession.isNone then throw .captureSessionIsMissing
  modify fun c => { c with hasPhotoOutput := true }
  modifySession .startRunning

/-- `prepare(completionHandler:)`, the error being what the handler gets. -/
def prepare (lockForConfiguration : AVCaptureDevice → Option CameraError)
    (cameras : List AVCaptureDevice) (o : Attachment) : CameraM κ Unit := do
  modify fun c => { c with captureSession := some .new }
  configureCaptureDevices lockForConfiguration cameras
  configureDeviceInputs o
  configurePhotoOutput

/-! ### Switching -/

/-- The body of `switchToFrontCamera()` and `switchToRearCamera()`. -/
def switchTo (position : CameraPosition) (o : Attachment) : CameraM κ Unit := do
  let c ← get
  match c.cameraInput position.other, c.captureSession, c.camera position with
  | some oldInput, some session, some camera => do
    if oldInput ∉ session.inputs then throw .invalidOperation
    let input ← createInput o camera
    modify (·.setCameraInput position input)
    modifySession (·.removeInput oldInput)
    if o.canAddInput then
      modifySession (·.addInput input)
      modify fun c => { c with currentCameraPosition := some position }
    else throw .invalidOperation
  | _, _, _ => throw .invalidOperation

/-- `switchToFrontCamera()`. -/
def switchToFrontCamera (o : Attachment) : CameraM κ Unit := switchTo .front o

/-- `switchToRearCamera()`. -/
def switchToRearCamera (o : Attachment) : CameraM κ Unit := switchTo .rear o

/-- `switchCameras()`. -/
def switchCameras (o : Attachment) : CameraM κ Unit := do
  let c ← get
  match c.currentCameraPosition, c.captureSession with
  | some position, some session => do
    if !session.isRunning then throw .captureSessionIsMissing
    modifySession .beginConfiguration
    match position with
    | .front => switchToRearCamera o
    | .rear => switchToFrontCamera o
    modifySession .commitConfiguration
  | _, _ => throw .captureSessionIsMissing

end CameraController

/-! ### Photos -/

/-- `UIImage.Orientation`. -/
inductive ImageOrientation
  | up
  | down
  | left
  | right
  | upMirrored
  | downMirrored
  | leftMirrored
  | rightMirrored
deriving DecidableEq

/-- An image, by the way it was made. -/
inductive UIImage
  /-- `UIImage(data:)`, oriented as the data say. -/
  | decoded (data : Data)
  /-- `UIImage(cgImage:scale:orientation:)`, with the bitmap of another image. -/
  | oriented (image : UIImage) (scale : ℕ) (orientation : ImageOrientation)
deriving DecidableEq

/-- A call of a completion of `captureImage`. -/
structure Invocation (κ : Type) where
  completion : κ
  image : Option UIImage
  error : Option CameraError
deriving DecidableEq

namespace CameraController

variable {κ : Type}

/-- `captureImage(completion:)`: the controller afterwards, whether AVFoundation has been asked for
a photo, and the call that is made at once if the session is not running. -/
def captureImage (completion : κ) (c : CameraController κ) :
    CameraController κ × Bool × Option (Invocation κ) :=
  if (c.captureSession.map AVCaptureSession.isRunning).getD false then
    ({ c with photoCaptureCompletion := some completion }, c.hasPhotoOutput, none)
  else (c, false, some ⟨completion, none, some .captureSessionIsMissing⟩)

/-- What `photoOutput(_:didFinishProcessingPhoto:...)` calls a completion with. The error is the one
that AVFoundation reports, and the image is what the buffer decodes to. -/
def processed (error : Option CameraError) (image : Option UIImage) (completion : κ) :
    Invocation κ :=
  match error, image with
  | some error, _ => ⟨completion, none, some error⟩
  | none, some image => ⟨completion, some image, none⟩
  | none, none => ⟨completion, none, some .unknown⟩

/-- `photoOutput(_:didFinishProcessingPhoto:...)`: the call of the stored completion. -/
def photoOutput (error : Option CameraError) (image : Option UIImage) (c : CameraController κ) :
    Option (Invocation κ) :=
  c.photoCaptureCompletion.map (processed error image)

end CameraController

end SnapYak
