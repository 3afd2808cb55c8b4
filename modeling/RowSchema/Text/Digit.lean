import RowSchema.Text.DecimalDigit
import RowSchema.Text.Ranges

/-! Signs for single digits: decimal digits, and digits that are raised, lowered or enclosed. -/

namespace RowSchema.Text

/-- The signs for digits that are no decimal digits of a script. -/
def digitSignRanges : Ranges := [
  (0xb2, 0xb3), (0xb9, 0xb9), (0x1369, 0x1371), (0x19da, 0x19da), (0x2070, 0x2070),
  (0x2074, 0x2079), (0x2080, 0x2089), (0x2460, 0x2468), (0x2474, 0x247c), (0x2488, 0x2490),
  (0x24ea, 0x24ea), (0x24f5, 0x24fd), (0x24ff, 0x24ff), (0x2776, 0x277e), (0x2780, 0x2788),
  (0x278a, 0x2792), (0x10a40, 0x10a43), (0x10e60, 0x10e68), (0x11052, 0x1105a),
  (0x1f100, 0x1f10a)]

def isDigitSign (c : Char) : Bool := isDigit c || digitSignRanges.contains c

end RowSchema.Text
