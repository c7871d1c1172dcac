/-!
# Version

The version that every part of the library reports.
-/
namespace RadioAdmin

def version : String := "0.1.0"

end RadioAdmin
