import CaseSuite.Proofs.Listing.Rendering
import CaseSuite.Proofs.Listing.Sources
import CaseSuite.Proofs.Text.Literals

/-!
# The configuration in a listing

A listing is a file, so it is read with each carriage return before a line feed taken away, and a
raw literal may not hold a carriage return that is left.  Read in this way, the configuration of a
listing is the configuration of the case file only if that holds no carriage return; one before a
line feed gets lost, and any other makes the literal invalid.
-/

namespace CaseSuite
namespace Listing

/-! ## Line ends -/

end Listing
end CaseSuite
