import ModuleBundler.Path.Basic
import ModuleBundler.Image.Png
import ModuleBundler.Image.Gif
import ModuleBundler.Image.Jpeg
import ModuleBundler.Image.Webp

/-!
# Image dimensions

The pixel width and height of an image, the format being given by the file's extension: PNG,
JPEG, GIF or WebP. Each format's reader checks the file as far as a decoder does before it
reports the size, so a damaged or unsupported header has no dimensions; so has any other file.
-/

namespace ModuleBundler

namespace Image

/-- The dimensions of an image file, the format chosen by its extension. -/
def dimensions? (path : Path) (bytes : List UInt8) : Option (Nat × Nat) :=
  let bs := bytes.toArray
  match path.extension?.map String.toLower with
  | some "png" | some "apng" => png? bs
  | some "jpg" | some "jpeg" | some "jfif" => jpeg? bs
  | some "gif" => gif? bs
  | some "webp" => webp? bs
  | _ => none

end Image

end ModuleBundler
