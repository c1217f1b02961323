import ScratchScript.Digest
import ScratchScript.Json.Basic

/-!
# The costume

Every target of a project wears the same costume, a disc, either at its natural size or scaled to the costume box. Its
digest names it.
-/

namespace ScratchScript.Project

/-- A vector image and the centre about which it turns, in tenths. -/
structure Costume where
  image : String
  center : Int
  deriving DecidableEq, Repr

namespace Costume

/-- The disc in a box of 48. -/
def natural : Costume where
  image := "<svg xmlns=\"http://www.w3.org/2000/svg\" width=\"48\" height=\"48\" viewBox=\"0 0 48 48\">" ++
    "<circle cx=\"24\" cy=\"24\" r=\"20\" fill=\"#ffab19\" stroke=\"#cf8b17\" stroke-width=\"2\"/></svg>"
  center := 240

/-- The disc scaled to the costume box of 64. -/
def scaled : Costume where
  image := "<svg xmlns=\"http://www.w3.org/2000/svg\" width=\"64\" height=\"64\" viewBox=\"0 0 64 64\">" ++
    "<g transform=\"scale(1.333333 1.333333)\">" ++
    "<circle cx=\"24\" cy=\"24\" r=\"20\" fill=\"#ffab19\" stroke=\"#cf8b17\" stroke-width=\"2\"/></g></svg>"
  center := 320

def assetId (costume : Costume) : String :=
  Digest.Md5.hex costume.image.toUTF8.toList

def fileName (costume : Costume) : String :=
  costume.assetId ++ ".svg"

/-- How a target describes the costume. -/
def json (costume : Costume) (name : String) : Json :=
  .object [("name", .str name), ("assetId", .str costume.assetId), ("md5ext", .str costume.fileName),
    ("dataFormat", .str "svg"), ("rotationCenterX", .tenths costume.center),
    ("rotationCenterY", .tenths costume.center)]

end Costume

end ScratchScript.Project
