import LayerTree.Host
import LayerTree.Media.Bmp
import LayerTree.Media.Gif
import LayerTree.Media.Png

/-!
The size and the number of frames of an image, whose format its first bytes tell.
-/

set_option autoImplicit false
set_option relaxedAutoImplicit false

namespace LayerTree.Media

def startsWith (signature bytes : List UInt8) : Bool := bytes.take signature.length == signature

def imageInfo? (bytes : List UInt8) : Option ImageInfo :=
  if startsWith Png.signature bytes then
    (Png.size? bytes).map fun (width, height) => ⟨width, height, 1⟩
  else if Gif.signatures.any (startsWith · bytes) then
    (Gif.read? bytes).map fun (screen, frames) => ⟨screen.width, screen.height, frames⟩
  else if startsWith Bmp.signature bytes then
    (Bmp.size? bytes).map fun (width, height) => ⟨width, height, 1⟩
  else none

end LayerTree.Media
