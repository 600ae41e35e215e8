/-!
# Constants

The doubles nearest to Euler's number and to the circle number.
-/

namespace Curves.Number

def e : Float := 2.718281828459045

def pi : Float := 3.141592653589793

end Curves.Number
