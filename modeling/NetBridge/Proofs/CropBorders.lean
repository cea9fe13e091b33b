import NetBridge.Target.TensorFlow
import NetBridge.Proofs.NumberText
import NetBridge.Proofs.PadPairs

/-!
# Borders that are cropped

The border of a cropped image is stored as a flat list, axis by axis. Code that reads it in pairs finds the sides, code
that takes it for two starts and two ends finds them for some borders only (`crops_agree_iff`).
-/

namespace NetBridge

open Run Code

variable {top bottom left right : Int}

/-! ## The stored border -/

theorem Source.Keras.cropping_border {v : Vertex Node} {b b' : Builder Node State} {crop : Value} {vs : List Value}
    (hcrop : property v "cropping" = .ok crop) (hvs : crop.elements = .ok vs)
    (hsides : vs.mapM (·.elements) = .ok [[.int top, .int bottom], [.int left, .int right]])
    (h : (cropping v).outcome b = (.ok (), b')) :
    (layerAt b' b.layers.size).get "border" = .ok (.ints [top, bottom, left, right]) := by
  obtain ⟨k, b₁, hcarry, h⟩ := step_cases h
  obtain ⟨rfl, hfresh⟩ := begins_carry _ b rfl k b₁ hcarry
  replace h := (lift_bind_ok hcrop rfl).symm.trans h
  replace h := (lift_bind_ok hvs rfl).symm.trans h
  replace h := (bind_ok (mapM_lift_eq_ok b₁ hsides) rfl).symm.trans h
  obtain ⟨l, hl, rfl⟩ := assign_eq_ok h
  have hunset : (layerAt b₁ b.layers.size).attr "border" = .unset := hfresh.unset _ (by decide)
  have hborder : l.attr "border" = .list { ints := [top, bottom, left, right] } :=
    Layer.attr_of_assigned hunset rfl (by simp) hl
  rw [Layer.get_eq_read rfl, layerAt_edit, if_pos ⟨rfl, hfresh.inside⟩, hborder]
  rfl

namespace Target

def Keras.cropLine (u : Vertex Layer) (x : String) (sides : List (Int × Int)) : Line :=
  .assign 1 u.variableName ["layers.Cropping", toString sides.length, "D(cropping=", pairTuples sides,
    ", name='", u.name, "')(", .use x, ")"]

def TensorFlow.cropLine (u : Vertex Layer) (x : String) (top left height width : Int) : Line :=
  .assign 1 u.variableName ["tf.image.crop_to_bounding_box(", .use x, ", offset_height=", toString top,
    ", offset_width=", toString left, ", target_height=", toString height, ", target_width=", toString width, ")"]

def CoreMl.cropCall (u : Vertex Layer) (x : String) (top bottom left right : Int) : Call where
  name := "add_crop"
  args := []
  named := [("name", .text u.name), ("top", .int top), ("left", .int left), ("bottom", .int bottom),
    ("right", .int right), ("offset", .ints [0, 0]), ("input_names", .list [.text x]),
    ("output_name", .text u.outputName)]

section
variable {u p : Vertex Layer} {s : Scope} (hborder : u.item.get "border" = .ok (.ints [top, bottom, left, right]))
  (hp : (parent u.name [0]).outcome s = (.ok p, s))
include hborder hp

theorem Keras.crop_outcome :
    (Keras.crop u).outcome s = (.ok [Keras.cropLine u p.variableName [(top, bottom), (left, right)]], s) := by
  refine lift_bind_ok hborder (lift_bind_ok rfl ?_)
  exact bind_ok (bind_ok hp rfl) rfl

theorem TensorFlow.crop_outcome {n height width channels : Int}
    (hshape : (outputShapeValue u).outcome s = (.ok [n, height, width, channels], s)) :
    (TensorFlow.crop u).outcome s = (.ok [TensorFlow.cropLine u p.variableName top bottom height width], s) := by
  refine bind_ok (lift_bind_ok hborder (lift_ok (Value.toInts_ints _))) ?_
  exact bind_ok rfl (bind_ok hshape (bind_ok (bind_ok hp rfl) rfl))

theorem CoreMl.crop_outcome (calls : List Call) : (CoreMl.crop u).outcome ⟨s, calls⟩ =
    (.ok (), ⟨s, calls ++ [CoreMl.cropCall u p.outputName bottom left top right]⟩) := by
  have hout : (source u).outcome s = (.ok p.outputName, s) := bind_ok hp rfl
  have hsource : (inScope (source u)).outcome ⟨s, calls⟩ = (.ok p.outputName, ⟨s, calls⟩) := by
    refine bind_ok rfl ?_
    dsimp only
    rw [hout]
    rfl
  exact bind_ok hsource (lift_bind_ok hborder (lift_bind_ok rfl rfl))

end

end Target

theorem toString_injective : Function.Injective (toString : Int → String) := fun m n h => by
  have hread := congrArg Decimal.readInt? h
  rwa [Decimal.readInt?_toString, Decimal.readInt?_toString, Option.some_inj] at hread

open Target in
/-- The pairs are written as they were read. The sides are found where the border is the same on some of them. -/
theorem crops_agree_iff {v : Vertex Source.Keras.Node} {b b' : Source.Builder Source.Keras.Node Source.Keras.State}
    {crop : Value} {vs : List Value} (hcrop : Source.Keras.property v "cropping" = .ok crop)
    (hvs : crop.elements = .ok vs)
    (hsides : vs.mapM (·.elements) = .ok [[.int top, .int bottom], [.int left, .int right]])
    (h : (Source.Keras.cropping v).outcome b = (.ok (), b')) {u p : Vertex Layer} {s : Scope}
    (hu : u.item = Source.layerAt b' b.layers.size) (hp : (parent u.name [0]).outcome s = (.ok p, s))
    {n height width channels : Int}
    (hshape : (outputShapeValue u).outcome s = (.ok [n, height, width, channels], s)) (calls : List Call) :
    (Keras.crop u).outcome s = (.ok [Keras.cropLine u p.variableName [(top, bottom), (left, right)]], s) ∧
    ((TensorFlow.crop u).outcome s = (.ok [TensorFlow.cropLine u p.variableName top left height width], s) ↔
      bottom = left) ∧
    ((CoreMl.crop u).outcome ⟨s, calls⟩ =
        (.ok (), ⟨s, calls ++ [CoreMl.cropCall u p.outputName top bottom left right]⟩) ↔
      top = bottom ∧ bottom = left) := by
  have hborder := hu ▸ Source.Keras.cropping_border hcrop hvs hsides h
  refine ⟨Keras.crop_outcome hborder hp, ?_, ?_⟩
  · rw [TensorFlow.crop_outcome hborder hp hshape]
    simp only [TensorFlow.cropLine, Line.assign, Prod.mk.injEq, Except.ok.injEq, List.cons.injEq, Line.mk.injEq,
      Piece.text.injEq, toString_injective.eq_iff, true_and, and_true]
  · rw [CoreMl.crop_outcome hborder hp]
    simp only [CoreMl.cropCall, Prod.mk.injEq, CoreMl.State.mk.injEq, List.append_cancel_left_eq, List.cons.injEq,
      Call.mk.injEq, Value.int.injEq, true_and, and_true]
    omega

def croppedImage : Vertex Source.Keras.Node where
  name := "c"
  item := { kind := "Cropping2D", name := "c", properties := .ofList [
    ("output_shape", .tuple [.none, .int 6, .int 2, .int 3]),
    ("cropping", .tuple [.tuple [.int 1, .int 2], .tuple [.int 3, .int 4]])] }

def croppedLayer : Vertex Layer where
  name := "c"
  item := Source.layerAt ((Source.Keras.cropping croppedImage).outcome { own := {} }).2 0

theorem crops_agree_iff_uneven : ∃ s, (Target.Keras.crop croppedLayer).outcome s =
      (.ok [Target.Keras.cropLine croppedLayer "x" [(1, 2), (3, 4)]], s) ∧
    (Target.TensorFlow.crop croppedLayer).outcome s ≠
      (.ok [Target.TensorFlow.cropLine croppedLayer "x" 1 3 6 2], s) := by
  have hsides : [Value.tuple [.int 1, .int 2], .tuple [.int 3, .int 4]].mapM (·.elements) =
      .ok [[.int 1, .int 2], [.int 3, .int 4]] := rfl
  have hp : (parent croppedLayer.name [0]).outcome (Target.paddedScope []) = (.ok _, Target.paddedScope []) := rfl
  have hshape : (outputShapeValue croppedLayer).outcome (Target.paddedScope []) =
      (.ok [-1, 6, 2, 3], Target.paddedScope []) := rfl
  have hrun : (Source.Keras.cropping croppedImage).outcome { own := {} } = (.ok (), _) := rfl
  obtain ⟨hkeras, htensor, -⟩ := crops_agree_iff rfl rfl hsides hrun rfl hp hshape []
  exact ⟨_, hkeras, fun he => absurd (htensor.mp he) (by decide)⟩

end NetBridge
