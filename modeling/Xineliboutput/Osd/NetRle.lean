import Xineliboutput.Osd.RemoteReads

/-!
# The run-length format of the network

`rle_recompress_net` in `tools/rle.c` writes what `uncompress_osd_net` reads, and
`cXinelibServer::OsdCmd` gives it a destination of the size that the elements have.
-/

namespace Xineliboutput.Osd.Remote

open Xineliboutput.Osd.Rle

set_option autoImplicit false

end Xineliboutput.Osd.Remote
