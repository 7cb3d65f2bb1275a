import CephExporter.Go.Utf8
import CephExporter.Gob.Wire
import CephExporter.Gob.Struct
import CephExporter.Gob.RoundTrip
import CephExporter.Go.Regexp
import CephExporter.Mds.Description
import CephExporter.Mds.Labels
import CephExporter.Mds.Model
import CephExporter.Mds.SlowOps
import CephExporter.Mds.Collect
import CephExporter.Mds.Pipeline
import CephExporter.Mds.Spec
