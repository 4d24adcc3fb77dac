import NacPlatform.NetProto.Arp
import NacPlatform.Sensor.Arp

namespace NacPlatform.Sensor

open NetProto

end NacPlatform.Sensor
